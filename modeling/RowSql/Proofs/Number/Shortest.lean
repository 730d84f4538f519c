import RowSql.Proofs.Number.Rounding

/-!
# The shortest decimal

Every decimal that the search tries is asked to read back, and the exact one
that stands behind the search does so too, so what is written for a number reads
back to it, with either sign.
-/

namespace RowSql

namespace Binary64

/-- What is rounded to a magnitude with one sign is so with the other. -/
theorem ofUnits_of_place? {num den units : Nat} (hf : Fits units)
    (h : (ofUnits false num den).place? = some (units : Int))
    (negative : Bool) :
    ofUnits negative num den = .finite negative units hf := by
  rw [ofUnits] at h
  split at h
  · next hlt =>
      have hunits : roundToGrid num den = units :=
        Int.ofNat.inj (Option.some.inj h)
      subst hunits
      rw [ofUnits, dif_pos hlt]
  · have hlimit : unitsLimit = units := Int.ofNat.inj (Option.some.inj h)
    exact absurd hf.2 (hlimit ▸ Nat.lt_irrefl _)

end Binary64

namespace Decimal

theorem digits_pos_of_readsBack {d : Decimal} {units : Nat} (hu : 0 < units)
    (h : d.readsBack units = true) : 0 < d.digits := by
  rcases Nat.eq_zero_or_pos d.digits with hz | hpos
  · rw [readsBack, hz, Binary64.ofDecimal, if_pos rfl] at h
    have hplace : some (0 : Int) = some (units : Int) := eq_of_beq h
    have := Option.some.inj hplace
    omega
  · exact hpos

theorem ofDecimal_of_readsBack {d : Decimal} {units : Nat} (hu : 0 < units)
    (hf : Fits units) (h : d.readsBack units = true) (negative : Bool) :
    Binary64.ofDecimal negative d.digits d.exponent =
      .finite negative units hf := by
  have hpos := digits_pos_of_readsBack hu h
  rw [readsBack, Binary64.ofDecimal_eq hpos] at h
  rw [Binary64.ofDecimal_eq hpos]
  exact Binary64.ofUnits_of_place? hf (eq_of_beq h) negative

/-- The exact decimal reads back. -/
theorem exact_readsBack {units : Nat} (hu : 0 < units) (hf : Fits units) :
    (exact units).readsBack units = true := by
  have hfive (k : Nat) : 0 < Nat.pow 5 k := Nat.pow_pos (by decide)
  have hpos : 0 < units * Nat.pow 5 bitsBelowOne :=
    Nat.mul_pos hu (hfive bitsBelowOne)
  have hexp : (-(-(bitsBelowOne : Int))).toNat = bitsBelowOne := by omega
  have hzero : (-(bitsBelowOne : Int)).toNat = 0 := by omega
  have hten (k : Nat) :
      Binary64.ofUnits false (units * Nat.pow 5 k * 2 ^ k) (10 ^ k) =
        .finite false units hf := by
    rw [← Binary64.ofUnits_one hf]
    refine Binary64.ofUnits_congr (Nat.pow_pos (by decide)) Nat.one_pos ?_ false
    rw [Nat.pow_eq, Nat.mul_one, Nat.mul_assoc, ← Nat.mul_pow]
  rw [readsBack, exact, Binary64.ofDecimal_eq hpos, hexp, hzero, Nat.pow_zero,
    Nat.mul_one, unitsPerOne_eq_pow, hten]
  exact beq_self_eq_true _

-- Whether a decimal reads back is a question of big numbers, which is not to be
-- worked out.
attribute [local irreducible] readsBack

theorem readsBack_of_onGrid? {units : Nat} {exponent : Int} {d : Decimal}
    (h : onGrid? units exponent = some d) : d.readsBack units = true := by
  rw [onGrid?] at h
  split at h
  · next hlow hhigh =>
      split at h
      · cases h; exact hlow
      · split at h
        · cases h; exact hhigh
        · split at h
          · cases h; exact hlow
          · cases h; exact hhigh
  · next hlow _ => cases h; exact hlow
  · next _ hhigh => cases h; exact hhigh
  · cases h

/-- What is written for a number reads back to it. -/
theorem shortest_readsBack {units : Nat} (hu : 0 < units) (hf : Fits units) :
    (shortest units).readsBack units = true := by
  rw [shortest]
  cases hfound : search? units with
  | none => exact exact_readsBack hu hf
  | some d =>
      obtain ⟨n, _, hn⟩ := List.exists_of_findSome?_eq_some hfound
      exact readsBack_of_onGrid? hn

end Decimal

end RowSql
