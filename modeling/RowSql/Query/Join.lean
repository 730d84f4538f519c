import RowSql.Record
import RowSql.Statement.Basic

/-!
# Joins

The rows of a joined SELECT carry qualified names. Each join extends the rows so
far, in order, by the rows of its table that match, in the table's order; a left
join keeps a row that nothing matches as it is.
-/

namespace RowSql

/-- What can go wrong in running a statement, where `ε` is what can go wrong in
looking up a table. -/
inductive QueryError (ε : Type) where
  | noTables
  | table (e : ε)
  | overflow (e : Overflow)
deriving DecidableEq

/-- A way to look up the rows of a table. -/
abbrev Tables (ε : Type) := Text → Except ε (List Record)

namespace Query

variable {ε : Type}

/-- The rows, among some, whose right column loosely equals a left row's left
column. -/
def matching (join : Join) (l : Record) :
    List Record → Except Overflow (List Record)
  | [] => return []
  | r :: rs => do
    let equal ← (l.value join.leftColumn).equal (r.value join.rightColumn)
    let found ← matching join l rs
    return if equal then r :: found else found

/-- A row extended by those that match it. -/
def extend (kind : JoinKind) (l : Record) : List Record → List Record
  | [] =>
    match kind with
    | .inner => []
    | .left => [l]
  | rs => rs.map l.merge

/-- Rows joined with the rows of a table. -/
def joinRows (join : Join) (right : List Record) :
    List Record → Except Overflow (List Record)
  | [] => return []
  | l :: ls => do
    let found ← matching join l right
    let others ← joinRows join right ls
    return extend join.kind l found ++ others

/-- Rows with their names qualified by a table. -/
def qualifyRows (table : Text) (rows : List Record) : List Record :=
  rows.map (·.qualify table)

/-- One join: looks up the table and joins its rows. -/
def joinStep (tables : Tables ε) (join : Join) (rows : List Record) :
    Except (QueryError ε) (List Record) := do
  let right ← (tables join.table).mapError .table
  (joinRows join (qualifyRows join.table right) rows).mapError .overflow

def joinAll (tables : Tables ε) :
    List Join → List Record → Except (QueryError ε) (List Record)
  | [], rows => return rows
  | join :: joins, rows => do joinAll tables joins (← joinStep tables join rows)

/-- The tables that are looked up for some joins: all of them unless a join
fails. -/
def lookedUp (tables : Tables ε) : List Join → List Record → List Text
  | [], _ => []
  | join :: joins, rows =>
    join.table ::
      match joinStep tables join rows with
      | .ok next => lookedUp tables joins next
      | .error _ => []

/-- The rows of a SELECT before its filter. Without joins they are the table's
own; with joins there must be a way to look tables up. -/
def sourceRows (tables : Option (Tables ε)) (s : Select) (rows : List Record) :
    Except (QueryError ε) (List Record) :=
  match s.joins, tables with
  | [], _ => return rows
  | _ :: _, none => throw .noTables
  | joins, some tables => joinAll tables joins (qualifyRows s.table rows)

end Query

end RowSql
