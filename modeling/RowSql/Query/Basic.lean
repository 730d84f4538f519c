import RowSql.Filter.Basic
import RowSql.Query.Join
import RowSql.Query.Order

/-!
# Running statements

A statement is run on the rows of its table. It gives an answer and, if it
writes, the new rows of the table; rows themselves never change. A filter is put
to each row in turn, and SELECT, UPDATE and DELETE go by the same verdicts.
-/

namespace RowSql

/-- The answer of a statement: the rows of a SELECT, the new record of an
INSERT, or the number of rows that an UPDATE or a DELETE found. -/
inductive Answer where
  | rows (rows : List Record)
  | record (r : Record)
  | count (n : Nat)
deriving DecidableEq

namespace Answer

def shown : Answer → List Record
  | rows rs => rs
  | record r => [r]
  | count _ => []

/-- The number of rows that an answer is about. -/
def size : Answer → Nat
  | rows rs => rs.length
  | record _ => 1
  | count n => n

end Answer

/-- What running a statement gives: its answer, and the rows of the table after
it if it writes. -/
structure Outcome where
  answer : Answer
  contents : Option (List Record)
deriving DecidableEq

namespace Query

variable {ε : Type}

/-- The rows, each with whether it satisfies a filter. Without a filter all
do. -/
def judge (filter : Option Text) :
    List Record → Except Overflow (List (Record × Bool))
  | [] => return []
  | r :: rs => do
    let verdict ← filter.elim (.ok true) (Filter.holds · r)
    let verdicts ← judge filter rs
    return (r, verdict) :: verdicts

def accepted (verdicts : List (Record × Bool)) : List Record :=
  (verdicts.filter Prod.snd).map Prod.fst

def refused (verdicts : List (Record × Bool)) : List Record :=
  (verdicts.filter fun v => !v.2).map Prod.fst

/-- The first rows, or with a negative limit all but the last ones. -/
def limitRows (limit : Option Int) (rows : List Record) : List Record :=
  match limit with
  | none => rows
  | some (.ofNat n) => rows.take n
  | some (.negSucc n) => rows.take (rows.length - (n + 1))

def projectRows (columns : List Text) (rows : List Record) : List Record :=
  if columns = ["*".toText] then rows else rows.map (·.project columns)

/-- The filter of a SELECT: an empty one is none. -/
def selectFilter (s : Select) : Option Text :=
  if s.filter = some [] then none else s.filter

def select (tables : Option (Tables ε)) (s : Select) (rows : List Record) :
    Except (QueryError ε) Outcome := do
  let source ← sourceRows tables s rows
  let verdicts ← (judge (selectFilter s) source).mapError .overflow
  let ordered ← (orderRows s.order (accepted verdicts)).mapError .overflow
  return ⟨.rows (projectRows s.columns (limitRows s.limit ordered)), none⟩

def newRecord (s : Insert) : Record :=
  .ofFields ((s.columns.zip s.values).map fun p => (p.1, .text p.2))

def insert (s : Insert) (rows : List Record) : Outcome :=
  ⟨.record (newRecord s), some (rows ++ [newRecord s])⟩

def newFields (s : Update) : Fields :=
  s.assignments.map fun a => (a.1, .text a.2)

def update (s : Update) (rows : List Record) : Except Overflow Outcome := do
  let verdicts ← judge s.filter rows
  return ⟨.count (accepted verdicts).length,
    some (verdicts.map fun v => if v.2 then v.1.setAll (newFields s) else v.1)⟩

def delete (s : Delete) (rows : List Record) : Except Overflow Outcome := do
  let verdicts ← judge s.filter rows
  return ⟨.count (accepted verdicts).length, some (refused verdicts)⟩

/-- Runs a statement on the rows of its table. -/
def run (tables : Option (Tables ε)) (s : Statement) (rows : List Record) :
    Except (QueryError ε) Outcome :=
  match s with
  | .select s => select tables s rows
  | .insert s => return insert s rows
  | .update s => (update s rows).mapError .overflow
  | .delete s => (delete s rows).mapError .overflow

end Query

end RowSql
