import RowSql.Proofs.Number.Rounding
import RowSql.Proofs.Number.Written
import RowSql.Proofs.Text.Trim
import RowSql.Value

/-!
# Integers read back

The digits of an integer are a numeral without a point and a power of ten, and
are no name, so what is read from a written integer is the number nearest to it.
That holds of every integer: one that is too large is read as the infinity that
it is rounded to.
-/

namespace RowSql

open Text

variable {ds : List Nat}

theorem digit?_digitChar {d : Nat} (h : d < 10) :
    digit? (digitChar d) = some d := by
  have hall : ∀ d < 10, digit? (digitChar d) = some d := by decide
  exact hall d h

theorem leadingDigits_map (h : ∀ d ∈ ds, d < 10) :
    leadingDigits (ds.map digitChar) = (ds, []) := by
  induction ds with
  | nil => rfl
  | cons d ds ih =>
      rw [List.forall_mem_cons] at h
      rw [List.map_cons, leadingDigits, digit?_digitChar h.1]
      simp only [ih h.2]

/-- A written number has no sign in front of it. -/
theorem splitSign_ofNat (n : Nat) : splitSign (ofNat n) = (false, ofNat n) := by
  have hsign : ∀ c ∈ ofNat n, c ≠ '-' ∧ c ≠ '+' :=
    forall_mem_ofNat (by decide) n
  rw [splitSign.eq_def]
  split
  · next s hs => exact absurd rfl (hsign '-' (hs ▸ List.mem_cons_self)).1
  · next s hs => exact absurd rfl (hsign '+' (hs ▸ List.mem_cons_self)).2
  · rfl

/-- A written number has none of the letters of a name. -/
theorem not_mem_toLower_ofNat (n : Nat) :
    CodePoint.char 'n' ∉ (ofNat n).map CodePoint.toLower := by
  have hletter : ∀ c ∈ ofNat n, c.toLower ≠ 'n' :=
    forall_mem_ofNat (by decide) n
  intro hmem
  obtain ⟨c, hc, hlower⟩ := List.mem_map.1 hmem
  exact hletter c hc hlower

namespace Binary64

theorem ofDecimal_zero (negative : Bool) (digits : Nat) :
    ofDecimal negative digits 0 =
      ofUnits negative (digits * unitsPerOne) 1 := by
  rcases Nat.eq_zero_or_pos digits with rfl | hpos
  · rw [ofDecimal, if_pos rfl, ofUnits_eq_zero (by omega)]
  · have hone :
        digits * 10 ^ (0 : Int).toNat * unitsPerOne = digits * unitsPerOne :=
        congrArg (· * unitsPerOne) (Nat.mul_one digits)
    rw [ofDecimal_eq hpos, hone]
    rfl

theorem ofNumeral?_ofNat (negative : Bool) (n : Nat) :
    ofNumeral? negative (ofNat n) =
      some (ofUnits negative (n * unitsPerOne) 1) := by
  obtain ⟨d, ds, hds⟩ := List.exists_cons_of_ne_nil (decimalDigits_ne_nil n)
  have hdigits : ofDigits (d :: ds) = n := hds ▸ ofDigits_decimalDigits n
  have hlt : ∀ e ∈ d :: ds, e < 10 :=
    fun e he => lt_ten_of_mem_decimalDigits (hds ▸ he)
  rw [ofNumeral?, ofNat_eq_map, hds, leadingDigits_map hlt, ← hdigits,
    ← ofDecimal_zero]
  simp only [fractionDigits, List.append_nil, readExponent?]
  rfl

/-- No name is a number. -/
theorem ofText?_of_sign {negative : Bool} {t : Text} {n : Nat}
    (h : splitSign t = (negative, ofNat n)) :
    ofText? t = some (ofUnits negative (n * unitsPerOne) 1) := by
  have hname {word : Text} (hword : CodePoint.char 'n' ∈ word) :
      (ofNat n).map CodePoint.toLower ≠ word := by
    rintro rfl
    exact not_mem_toLower_ofNat n hword
  rw [ofText?, h]
  simp only
  rw [if_neg (not_or.2 ⟨hname (by decide), hname (by decide)⟩),
    if_neg (hname (by decide)), ofNumeral?_ofNat]

theorem ofText?_ofInt (n : Int) : ofText? (Text.ofInt n) = some (ofInt n) := by
  rw [Text.ofInt, ofInt]
  split
  · next hneg =>
      rw [decide_eq_true hneg]
      exact ofText?_of_sign rfl
  · next hnonneg =>
      rw [decide_eq_false hnonneg]
      exact ofText?_of_sign (splitSign_ofNat _)

/-- A field with a written integer in it reads as the number nearest to the
integer. -/
theorem ofField?_ofInt (n : Int) :
    ofField? (Text.ofInt n) = some (ofInt n) := by
  have hall : ∀ c ∈ numberCharacters, c ≠ '_' ∧ isBlank c = false := by decide
  have hmem := fun c hc => hall c (ofInt_subset_numberCharacters n hc)
  have hplain : ¬ (Text.ofInt n).contains (CodePoint.char '_') = true := by
    rw [List.contains_iff_mem]
    exact fun h => (hmem _ h).1 rfl
  rw [ofField?, if_neg hplain,
    (trimmed_of_solid fun c hc => (hmem c hc).2).trim_eq,
    ofText?_ofInt]

end Binary64

end RowSql
