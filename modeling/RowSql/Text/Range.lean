import RowSql.Text.CodePoint

/-!
# Tables of characters

A property of characters is kept as a list of closed ranges of code points. A
mapping between cases is kept as a list of runs: every `stride`-th character
from `first` to `last` moves by the same `shift`.
-/

namespace RowSql

/-- Whether a code point lies in one of the ranges. -/
def inRanges (ranges : List (Nat × Nat)) (n : Nat) : Bool :=
  ranges.any fun r => decide (r.1 ≤ n) && decide (n ≤ r.2)

/-- Code points `first`, `first + stride`, … up to `last`, which all move by
`shift`. -/
structure CaseRun where
  first : Nat
  last : Nat
  stride : Nat
  shift : Int

/-- Whether a code point is one of the run's. -/
def CaseRun.covers (r : CaseRun) (n : Nat) : Bool :=
  decide (r.first ≤ n) && decide (n ≤ r.last) &&
  decide ((n - r.first) % r.stride = 0)

/-- Moves a character as the run that covers it says, and leaves any other
alone. -/
def applyRuns (runs : List CaseRun) (c : CodePoint) : CodePoint :=
  match runs.find? (·.covers c.toNat) with
  | some r => .ofNat (c.toNat + r.shift).toNat
  | none => c

end RowSql
