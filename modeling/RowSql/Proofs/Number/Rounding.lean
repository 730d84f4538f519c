import Mathlib.Algebra.Group.Nat.Defs
import RowSql.Number.Shortest

/-!
# Rounding decimals

What a quotient is rounded to depends on its value only, and so does the number
that a decimal is read as: moving zeros from the digits to the power of ten
makes no difference. The shortcuts for powers of ten far beyond either end of
the range give what the quotient would have been rounded to.
-/

namespace RowSql

/-! ## Quotients

A quotient is rounded to a grid whose step depends on its size. Multiplying both
of its parts by the same number changes nothing. -/

theorem roundDiv_mul {k : Nat} (hk : 0 < k) (num den : Nat) :
    roundDiv (k * num) (k * den) = roundDiv num den := by
  have hlow (r : Nat) : 2 * (k * r) < k * den ↔ 2 * r < den := by
    rw [Nat.mul_left_comm]
    exact Nat.mul_lt_mul_left hk
  have hhigh (r : Nat) : k * den < 2 * (k * r) ↔ den < 2 * r := by
    rw [Nat.mul_left_comm]
    exact Nat.mul_lt_mul_left hk
  simp only [roundDiv, Nat.mul_div_mul_left _ _ hk, Nat.mul_mod_mul_left,
    hlow, hhigh]

theorem roundToGrid_mul {k : Nat} (hk : 0 < k) (num den : Nat) :
    roundToGrid (k * num) (k * den) = roundToGrid num den := by
  simp only [roundToGrid, Nat.mul_div_mul_left _ _ hk, Nat.mul_assoc,
    roundDiv_mul hk]

/-- A number on the grid of its binade is rounded to itself. -/
theorem roundToGrid_one {units : Nat} (h : Fits units) :
    roundToGrid units 1 = units := by
  have hpos : 0 < Nat.pow 2 (gridExponent units) := Nat.two_pow_pos _
  simp only [roundToGrid, Nat.div_one, Nat.one_mul, roundDiv, h.1, Nat.mul_zero]
  rw [if_pos hpos]
  exact Nat.div_mul_cancel (Nat.dvd_of_mod_eq_zero h.1)

/-- A quotient that rounds down to zero. -/
theorem roundToGrid_eq_zero {num den : Nat} (h : 2 * num < den) :
    roundToGrid num den = 0 := by
  have hdiv : num / den = 0 := Nat.div_eq_of_lt (by omega)
  have hmod : num % den = num := Nat.mod_eq_of_lt (by omega)
  have hgrid : Nat.pow 2 (gridExponent 0) = 1 := by decide
  simp only [roundToGrid, hdiv, hgrid, Nat.mul_one, roundDiv, hmod]
  rw [if_pos h]

-- The powers are too large to be worked out, so an exponent is a variable here.
theorem unitsLimit_eq_pow : unitsLimit = 2 ^ bitsOfRange := by
  delta unitsLimit
  generalize bitsOfRange = k
  exact Nat.pow_eq

theorem unitsPerOne_eq_pow : unitsPerOne = 2 ^ bitsBelowOne := by
  delta unitsPerOne
  generalize bitsBelowOne = k
  exact Nat.pow_eq

/-- What is not below a power of two is not rounded below it. -/
theorem two_pow_le_roundToGrid {num den k : Nat} (h : 2 ^ k ≤ num / den) :
    2 ^ k ≤ roundToGrid num den := by
  have hne : num / den ≠ 0 := by
    have := Nat.two_pow_pos k
    omega
  have hlog : k ≤ (num / den).log2 := (Nat.le_log2 hne).2 h
  have hgrid : gridExponent (num / den) ≤ (num / den).log2 := Nat.sub_le _ _
  have hpow : 2 ^ (num / den).log2 ≤ num / den := Nat.log2_self_le hne
  simp only [roundToGrid, Nat.pow_eq]
  -- The quotient is at least the power of two below it, which is on the grid.
  have hquot : 2 ^ ((num / den).log2 - gridExponent (num / den)) ≤
      num / (den * 2 ^ gridExponent (num / den)) := by
    rw [← Nat.div_div_eq_div_mul, Nat.le_div_iff_mul_le (Nat.two_pow_pos _),
      ← Nat.pow_add]
    rwa [Nat.sub_add_cancel hgrid]
  have hround : num / (den * 2 ^ gridExponent (num / den)) ≤
      roundDiv num (den * 2 ^ gridExponent (num / den)) := by
    simp only [roundDiv]
    split
    · omega
    · split
      · omega
      · split <;> omega
  have hmul :=
    Nat.mul_le_mul_right (2 ^ gridExponent (num / den))
      (Nat.le_trans hquot hround)
  rw [← Nat.pow_add, Nat.sub_add_cancel hgrid] at hmul
  exact Nat.le_trans (Nat.pow_le_pow_right (by decide) hlog) hmul

namespace Binary64

theorem ofUnits_mul {k : Nat} (hk : 0 < k) (negative : Bool) (num den : Nat) :
    ofUnits negative (k * num) (k * den) = ofUnits negative num den := by
  simp only [ofUnits, roundToGrid_mul hk]

/-- Equal quotients are rounded to the same number. -/
theorem ofUnits_congr {a b c d : Nat} (hb : 0 < b) (hd : 0 < d)
    (h : a * d = c * b) (negative : Bool) :
    ofUnits negative a b = ofUnits negative c d := by
  rw [← ofUnits_mul hd negative a b, ← ofUnits_mul hb negative c d,
    Nat.mul_comm d a, h, Nat.mul_comm c b, Nat.mul_comm d b]

theorem ofUnits_one {units : Nat} (h : Fits units) (negative : Bool) :
    ofUnits negative units 1 = .finite negative units h := by
  simp only [ofUnits, roundToGrid_one h]
  rw [dif_pos h.2]

theorem ofUnits_eq_zero {num den : Nat} (h : 2 * num < den) (negative : Bool) :
    ofUnits negative num den = zero negative := by
  simp only [ofUnits, roundToGrid_eq_zero h]
  rw [dif_pos unitsLimit_pos]
  rfl

theorem ofUnits_eq_infinite {num den : Nat} (h : unitsLimit ≤ num / den)
    (negative : Bool) :
    ofUnits negative num den = .infinite negative := by
  have hround : ¬ roundToGrid num den < unitsLimit := by
    rw [unitsLimit_eq_pow] at h ⊢
    exact Nat.not_lt.2 (two_pow_le_roundToGrid h)
  rw [ofUnits, dif_neg hround]

/-! ## Decimals

A decimal is a quotient of powers of ten, and beyond a certain power it is zero
or infinite at once. So there is one double for every decimal, in whatever way
that is written. -/

theorem two_pow_le_ten_pow {j k : Nat} (h : j ≤ 3 * k) : 2 ^ j ≤ 10 ^ k := by
  refine Nat.le_trans (Nat.pow_le_pow_right (by decide) h) ?_
  rw [Nat.pow_mul]
  exact Nat.pow_le_pow_left (by decide) k

/-- The numbers of the range are those below this power of two. -/
def bitsAboveOne : Nat := bitsOfRange - bitsBelowOne

theorem unitsLimit_eq : unitsLimit = 2 ^ bitsAboveOne * unitsPerOne := by
  have hbits : bitsOfRange = bitsAboveOne + bitsBelowOne := rfl
  rw [unitsLimit_eq_pow, unitsPerOne_eq_pow, ← Nat.pow_add, hbits]

/-- The quotient that a decimal is. -/
theorem ofDecimal_eq {digits : Nat} (h : 0 < digits) (negative : Bool)
    (exponent : Int) :
    ofDecimal negative digits exponent =
      ofUnits negative (digits * 10 ^ exponent.toNat * unitsPerOne)
          (10 ^ (-exponent).toNat) := by
  rw [ofDecimal, if_neg (by omega)]
  split
  · next hlarge =>
      rw [show (-exponent).toNat = 0 by omega, Nat.pow_zero]
      refine (ofUnits_eq_infinite ?_ negative).symm
      have hbits : bitsAboveOne = 1024 := rfl
      have hten : 2 ^ bitsAboveOne ≤ 10 ^ exponent.toNat :=
        two_pow_le_ten_pow (by omega)
      rw [Nat.div_one, unitsLimit_eq]
      refine Nat.mul_le_mul_right _ (Nat.le_trans hten ?_)
      exact Nat.le_mul_of_pos_left _ h
  · split
    · next hsmall =>
        rw [show exponent.toNat = 0 by omega, Nat.pow_zero, Nat.mul_one]
        refine (ofUnits_eq_zero ?_ negative).symm
        have hdigits : digits < 2 ^ (digits.log2 + 1) := Nat.lt_log2_self
        -- a unit is more than 10 to the power -358, which is not worked out
        obtain ⟨k, hk⟩ : ∃ k, k = 358 := ⟨_, rfl⟩
        have hbits : bitsBelowOne = 1074 := rfl
        have hunits : unitsPerOne ≤ 10 ^ k := by
          rw [unitsPerOne_eq_pow]
          exact two_pow_le_ten_pow (by omega)
        have hlog : 2 ^ digits.log2 ≤ 10 ^ digits.log2 :=
          Nat.pow_le_pow_left (by decide) _
        have hprod : digits * unitsPerOne < 2 ^ (digits.log2 + 1) * 10 ^ k :=
          Nat.mul_lt_mul_of_lt_of_le hdigits hunits (Nat.pow_pos (by decide))
        have hten : 2 ^ digits.log2 * 10 ^ k ≤ 10 ^ digits.log2 * 10 ^ k :=
          Nat.mul_le_mul_right _ hlog
        have hexp : 10 ^ (digits.log2 + k + 1) ≤ 10 ^ (-exponent).toNat :=
          Nat.pow_le_pow_right (by decide) (by omega)
        rw [Nat.pow_succ, Nat.mul_right_comm] at hprod
        rw [Nat.pow_succ, Nat.pow_add] at hexp
        omega
    · rfl

/-- Zeros moved from the digits to the power of ten. -/
theorem ofDecimal_mul_pow (negative : Bool) (digits k : Nat) (exponent : Int) :
    ofDecimal negative (digits * 10 ^ k) exponent =
      ofDecimal negative digits (exponent + k) := by
  rcases Nat.eq_zero_or_pos digits with rfl | h
  · rw [Nat.zero_mul, ofDecimal, ofDecimal, if_pos rfl, if_pos rfl]
  · rw [ofDecimal_eq (Nat.mul_pos h (Nat.pow_pos (by decide))), ofDecimal_eq h]
    refine ofUnits_congr (Nat.pow_pos (by decide)) (Nat.pow_pos (by decide)) ?_
      negative
    have hexp : k + exponent.toNat + (-(exponent + k)).toNat =
        (exponent + k).toNat + (-exponent).toNat := by omega
    have hpow := congrArg (10 ^ ·) hexp
    simp only [Nat.pow_add] at hpow
    calc digits * 10 ^ k * 10 ^ exponent.toNat * unitsPerOne * 10 ^
      (-(exponent + k)).toNat
        = digits * unitsPerOne *
            (10 ^ k * 10 ^ exponent.toNat * 10 ^ (-(exponent + k)).toNat) := by
          simp only [Nat.mul_assoc, Nat.mul_left_comm, Nat.mul_comm]
      _ = digits * unitsPerOne *
        (10 ^ (exponent + k).toNat * 10 ^ (-exponent).toNat) := by
          rw [hpow]
      _ = digits * 10 ^ (exponent + k).toNat * unitsPerOne * 10 ^
        (-exponent).toNat := by
          simp only [Nat.mul_assoc, Nat.mul_left_comm, Nat.mul_comm]

end Binary64

end RowSql
