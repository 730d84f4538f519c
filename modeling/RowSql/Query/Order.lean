import RowSql.Record
import RowSql.Statement.Basic

/-!
# Order

Rows are sorted by one field; rows that compare equal keep their order, in
either direction. A row without a value comes last in ascending order and first
in descending order. An integer that is too large cannot be compared with
another value that is there, so it can only stand alone.

Numbers and texts together need not be ordered: `"9"` comes before `"10"` as a
number, and as texts `"10"` comes before `"1x"` and `"1x"` before `"9"`. Where
the comparison is no total preorder of the values, which permutation a sort
gives depends on how it goes about it, and the merge sort used here need not
give that of another stable sort. Where it is one, all stable sorts agree.
-/

namespace RowSql.Query

/-- Whether an order does not forbid one value in front of another. -/
def inOrder (direction : Direction) (a b : Value) : Bool :=
  match direction with
  | .ascending => (a.compare b).toOption != some .gt
  | .descending => (b.compare a).toOption != some .gt

/-- The values by which rows are sorted, those that are there. -/
def presentKeys (field : Text) (rows : List Record) : List Value :=
  (rows.map (·.value field)).filter (·.isPresent)

/-- Whether the sort must compare a value that cannot be compared. -/
def checkKeys : List Value → Except Overflow Unit
  | [] => return ()
  -- a key alone is compared with nothing
  | [_] => return ()
  | keys => keys.forM fun v => do let _ ← v.number?

def sortRows (field : Text) (direction : Direction) (rows : List Record) :
    Except Overflow (List Record) := do
  checkKeys (presentKeys field rows)
  return rows.mergeSort fun r s =>
    inOrder direction (r.value field) (s.value field)

def orderRows (order : Option (Text × Direction)) (rows : List Record) :
    Except Overflow (List Record) :=
  match order with
  | some (field, direction) => sortRows field direction rows
  | none => return rows

end RowSql.Query
