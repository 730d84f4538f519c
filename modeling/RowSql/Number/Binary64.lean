/-!
# Binary64 numbers

Every finite number of the format is a whole number of units of 2⁻¹⁰⁷⁴, so a
magnitude is kept as that whole number, however large, and comparing two
numbers is comparing integers. A magnitude fits the format when it has at most
53 significant bits and lies below 2¹⁰²⁴. A quotient is rounded to the nearest
magnitude that fits, a tie to the one with an even significand, and what rounds
to 2¹⁰²⁴ or more is infinite.
-/

namespace RowSql

/-- The exponent of the grid on which the numbers of a binade lie. -/
def gridExponent (units : Nat) : Nat :=
  units.log2 - 52

/-- The power of two by which one exceeds the unit. -/
def bitsBelowOne : Nat := 1074

def unitsPerOne : Nat :=
  Nat.pow 2 bitsBelowOne

/-- The power of two by which the range exceeds the unit. -/
def bitsOfRange : Nat := 2098

/-- The least number of units that is beyond the format. -/
def unitsLimit : Nat :=
  Nat.pow 2 bitsOfRange

-- The power is too large to be worked out, so its exponent is a variable here.
theorem unitsLimit_pos : 0 < unitsLimit := by
  delta unitsLimit
  generalize bitsOfRange = k
  exact Nat.two_pow_pos k

/-- A whole number of units that the format holds: on the grid of its binade and
within the range. -/
def Fits (units : Nat) : Prop :=
  units % Nat.pow 2 (gridExponent units) = 0 ∧ units < unitsLimit

instance (units : Nat) : Decidable (Fits units) :=
  inferInstanceAs (Decidable (_ ∧ _))

/-- A quotient rounded to a whole number, a tie to the even one. -/
def roundDiv (num den : Nat) : Nat :=
  let q := num / den
  let r := num % den
  if 2 * r < den then q
  else if den < 2 * r then q + 1
  else if q % 2 = 0 then q else q + 1

/-- A quotient of units rounded to the grid of its binade. -/
def roundToGrid (num den : Nat) : Nat :=
  let grid := Nat.pow 2 (gridExponent (num / den))
  roundDiv num (den * grid) * grid

/-- A significand of at most 53 bits is on the grid wherever it is shifted. -/
theorem mod_gridExponent_of_le {m k : Nat} (hm : m ≤ Nat.pow 2 53) :
    m * Nat.pow 2 k % Nat.pow 2 (gridExponent (m * Nat.pow 2 k)) = 0 := by
  simp only [Nat.pow_eq] at hm ⊢
  rcases Nat.eq_or_lt_of_le hm with rfl | hlt
  · have h : (2 ^ 53 * 2 ^ k).log2 = 53 + k := by
      rw [← Nat.pow_add, Nat.log2_two_pow]
    rw [gridExponent, h, ← Nat.pow_add]
    exact Nat.mod_eq_zero_of_dvd (Nat.pow_dvd_pow 2 (by omega))
  · apply Nat.mod_eq_zero_of_dvd
    apply Nat.dvd_trans (Nat.pow_dvd_pow 2 (_ : _ ≤ k)) (Nat.dvd_mul_left _ _)
    rcases Nat.eq_zero_or_pos m with rfl | hpos
    · simp [gridExponent]
    · have hne : m * 2 ^ k ≠ 0 := by
        have := Nat.mul_pos hpos (Nat.two_pow_pos k)
        omega
      have hb : (m * 2 ^ k).log2 < 53 + k := by
        rw [Nat.log2_lt hne, Nat.pow_add]
        exact Nat.mul_lt_mul_of_pos_right hlt (Nat.two_pow_pos k)
      simp only [gridExponent]
      omega

/-- A rounded quotient exceeds the exact one by less than one. -/
theorem roundDiv_le (num den : Nat) : roundDiv num den ≤ num / den + 1 := by
  simp only [roundDiv]
  split
  · omega
  · split
    · omega
    · split <;> omega

/-- What has been rounded is on the grid. -/
theorem roundToGrid_mod (num den : Nat) :
    roundToGrid num den % Nat.pow 2 (gridExponent (roundToGrid num den)) =
      0 := by
  apply mod_gridExponent_of_le
  simp only [Nat.pow_eq]
  refine Nat.le_trans (roundDiv_le _ _) ?_
  rw [← Nat.div_div_eq_div_mul]
  have h : num / den < 2 ^ ((num / den).log2 + 1) := Nat.lt_log2_self
  have hg : (num / den).log2 + 1 ≤ 53 + gridExponent (num / den) := by
    simp only [gridExponent]; omega
  have h2 : num / den < 2 ^ 53 * 2 ^ gridExponent (num / den) := by
    rw [← Nat.pow_add]
    exact Nat.lt_of_lt_of_le h (Nat.pow_le_pow_right (by decide) hg)
  have h3 := (Nat.div_lt_iff_lt_mul (Nat.two_pow_pos _)).2 h2
  omega

/-- A number of the binary64 format. There is one quiet value that is no number,
and zero has a sign. -/
inductive Binary64 where
  | nan
  | infinite (negative : Bool)
  | finite (negative : Bool) (units : Nat) (fits : Fits units)
deriving DecidableEq

namespace Binary64

def zero (negative : Bool) : Binary64 :=
  .finite negative 0 ⟨Nat.zero_mod _, unitsLimit_pos⟩

/-- The number nearest to a quotient of units. -/
def ofUnits (negative : Bool) (num den : Nat) : Binary64 :=
  if h : roundToGrid num den < unitsLimit then
    .finite negative (roundToGrid num den) ⟨roundToGrid_mod num den, h⟩
  else
    .infinite negative

/-- The number nearest to an integer, which is infinite when the integer is too
large. -/
def ofInt (n : Int) : Binary64 :=
  ofUnits (decide (n < 0)) (n.natAbs * unitsPerOne) 1

/-- The number nearest to `digits * 10 ^ exponent`. Far beyond either end of the
range the power of ten is not worked out. -/
def ofDecimal (negative : Bool) (digits : Nat) (exponent : Int) : Binary64 :=
  if digits = 0 then zero negative
  else if 400 < exponent then .infinite negative
  else if exponent < -(400 + digits.log2 : Int) then zero negative
  else
    ofUnits negative (digits * Nat.pow 10 exponent.toNat * unitsPerOne)
      (Nat.pow 10 (-exponent).toNat)

def isFinite : Binary64 → Bool
  | .finite .. => true
  | _ => false

/-- The place on the line of numbers, in units: an infinity stands just beyond
every finite number, and what is no number has no place. -/
def place? : Binary64 → Option Int
  | .nan => none
  | .infinite negative =>
    some (if negative then -(unitsLimit : Int) else unitsLimit)
  | .finite negative units _ =>
    some (if negative then -(units : Int) else units)

/-- Equal places: the two zeros are equal, and what is no number equals
nothing. -/
def eq (x y : Binary64) : Bool :=
  match x.place?, y.place? with
  | some a, some b => decide (a = b)
  | _, _ => false

/-- One place below the other. -/
def lt (x y : Binary64) : Bool :=
  match x.place?, y.place? with
  | some a, some b => decide (a < b)
  | _, _ => false

/-- One place not above the other. -/
def le (x y : Binary64) : Bool :=
  match x.place?, y.place? with
  | some a, some b => decide (a ≤ b)
  | _, _ => false

/-- The whole number that a number is, if it is one. -/
def toInt? : Binary64 → Option Int
  | .finite negative units _ =>
    if units % unitsPerOne = 0 then
      some (if negative then -((units / unitsPerOne : Nat) : Int)
        else (units / unitsPerOne : Nat))
    else none
  | _ => none

end Binary64

end RowSql
