import RowSql.Filter.Connective
import RowSql.Filter.Leaf

/-!
# Filters

A filter is a disjunction of branches, a branch a conjunction of leaves. Both
are judged from left to right and no further than needed, so a leaf that cannot
be compared counts only when it is reached.
-/

namespace RowSql.Filter

/-- Whether a test succeeds on every item, asked in order up to the first
failure. -/
def allHold {α ε : Type} (test : α → Except ε Bool) : List α → Except ε Bool
  | [] => return true
  | a :: as => do if ← test a then allHold test as else return false

/-- Whether a test succeeds on some item, asked in order up to the first
success. -/
def anyHolds {α ε : Type} (test : α → Except ε Bool) : List α → Except ε Bool
  | [] => return false
  | a :: as => do if ← test a then return true else anyHolds test as

def branches (filter : Text) : List Text :=
  splitLogical "OR".toText filter

def leaves (branch : Text) : List Text :=
  (splitLogical "AND".toText (unwrapParens branch)).map unwrapParens

def branchHolds (branch : Text) (r : Record) : Except Overflow Bool :=
  allHold (condition · r) (leaves branch)

/-- Whether a record satisfies a filter. -/
def holds (filter : Text) (r : Record) : Except Overflow Bool :=
  anyHolds (branchHolds · r) (branches filter)

end RowSql.Filter
