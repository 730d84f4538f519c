import Mathlib.Algebra.Group.Nat.Defs
import Mathlib.Data.List.Induction
import RowSql.Json.Scalar

/-!
# Decimal digits, written and read

A number is written as its digits, the first of which is zero only when it is
the number zero, and the digits spell the number again. A reader of digits takes
all of those at the head of a text, so what follows must not open with one.
-/

namespace RowSql

/-! ## The digits of a number

Digits are numbers below ten here, and those of a number have no zeros before
them. Rows of digits are compared by the number that they stand for. -/

/-- The decimal digits of a number, the first one first. -/
def decimalDigits (n : Nat) : List Nat :=
  if n < 10 then [n] else decimalDigits (n / 10) ++ [n % 10]
termination_by n
decreasing_by omega

theorem ofNat_eq_map (n : Nat) :
    Text.ofNat n = (decimalDigits n).map Text.digitChar := by
  induction n using Text.ofNat.induct with
  | case1 n h =>
      rw [Text.ofNat, decimalDigits, if_pos h, if_pos h, List.map_singleton]
  | case2 n h ih =>
      rw [Text.ofNat, decimalDigits, if_neg h, if_neg h, ih, List.map_append,
        List.map_singleton]

theorem decimalDigits_ne_nil (n : Nat) : decimalDigits n ≠ [] := by
  rw [decimalDigits]
  split
  · exact List.cons_ne_nil n []
  · exact List.append_ne_nil_of_right_ne_nil _ (List.cons_ne_nil _ [])

theorem lt_ten_of_mem_decimalDigits {n d : Nat} (h : d ∈ decimalDigits n) :
    d < 10 := by
  induction n using decimalDigits.induct with
  | case1 n hn =>
      rw [decimalDigits, if_pos hn, List.mem_singleton] at h
      omega
  | case2 n hn ih =>
      rw [decimalDigits, if_neg hn, List.mem_append, List.mem_singleton] at h
      rcases h with h | h
      · exact ih h
      · omega

/-- What holds of the ten digits holds of every character of a written
number. -/
theorem forall_mem_ofNat {p : CodePoint → Prop}
    (h : ∀ d < 10, p (Text.digitChar d)) (n : Nat) :
    ∀ c ∈ Text.ofNat n, p c := by
  rw [ofNat_eq_map]
  intro c hc
  obtain ⟨d, hd, rfl⟩ := List.mem_map.1 hc
  exact h d (lt_ten_of_mem_decimalDigits hd)

theorem ofDigits_concat (ds : List Nat) (d : Nat) :
    ofDigits (ds ++ [d]) = 10 * ofDigits ds + d := by
  simp [ofDigits]

theorem ofDigits_decimalDigits (n : Nat) : ofDigits (decimalDigits n) = n := by
  induction n using decimalDigits.induct with
  | case1 n hn =>
      rw [decimalDigits, if_pos hn]
      simp [ofDigits]
  | case2 n hn ih =>
      rw [decimalDigits, if_neg hn, ofDigits_concat, ih]
      omega

/-- The first digit of a number other than zero is not zero. -/
theorem exists_decimalDigits_eq {n : Nat} (h : 0 < n) :
    ∃ d ds, decimalDigits n = d :: ds ∧ 0 < d := by
  induction n using decimalDigits.induct with
  | case1 n hn => exact ⟨n, [], by rw [decimalDigits, if_pos hn], h⟩
  | case2 n hn ih =>
      obtain ⟨d, ds, hd, hpos⟩ := ih (by omega)
      exact ⟨d, ds ++ [n % 10],
        by rw [decimalDigits, if_neg hn, hd, List.cons_append], hpos⟩

theorem decimalDigits_zero : decimalDigits 0 = [0] := by
  rw [decimalDigits, if_pos (by omega)]

/-- A number below a power of ten has no more digits than that. -/
theorem length_decimalDigits_le {n k : Nat} (hk : 0 < k) (h : n < 10 ^ k) :
    (decimalDigits n).length ≤ k := by
  induction k generalizing n with
  | zero => omega
  | succ k ih =>
      rw [decimalDigits]
      split
      · simp
      · next hn =>
          rw [Nat.pow_succ] at h
          have hrest : (decimalDigits (n / 10)).length ≤ k := by
            apply ih
            · rcases Nat.eq_zero_or_pos k with rfl | hpos
              · rw [Nat.pow_zero] at h
                omega
              · exact hpos
            · omega
          rw [List.length_append, List.length_singleton]
          omega

theorem ofDigits_lt {ds : List Nat} (h : ∀ d ∈ ds, d < 10) :
    ofDigits ds < 10 ^ ds.length := by
  induction ds using List.reverseRecOn with
  | nil => simp [ofDigits]
  | append_singleton ds d ih =>
      have hds := ih fun e he => h e (List.mem_append_left _ he)
      have hd := h d (List.mem_append_right _ List.mem_cons_self)
      rw [ofDigits_concat, List.length_append, List.length_singleton,
        Nat.pow_succ]
      omega

theorem ofDigits_append_zeros (ds : List Nat) (k : Nat) :
    ofDigits (ds ++ List.replicate k 0) = ofDigits ds * 10 ^ k := by
  induction k with
  | zero => rw [List.replicate_zero, List.append_nil, Nat.pow_zero, Nat.mul_one]
  | succ k ih =>
      rw [List.replicate_succ', ← List.append_assoc, ofDigits_concat, ih,
        Nat.add_zero, Nat.mul_comm 10, Nat.mul_assoc, ← Nat.pow_succ]

theorem ofDigits_zeros_append (k : Nat) (ds : List Nat) :
    ofDigits (List.replicate k 0 ++ ds) = ofDigits ds := by
  induction k with
  | zero => rfl
  | succ k ih =>
      rw [List.replicate_succ, List.cons_append]
      exact ih

/-! ## Reading digits

A digit reader stops at the first character that is no digit. -/

theorem asciiDigit?_digitChar {d : Nat} (h : d < 10) :
    asciiDigit? (Text.digitChar d) = some d := by
  have hall : ∀ d < 10, asciiDigit? (Text.digitChar d) = some d := by decide
  exact hall d h

theorem eq_zero_of_digitChar {d : Nat} (h : d < 10)
    (hz : Text.digitChar d = '0') : d = 0 := by
  have hall : ∀ d < 10, Text.digitChar d = '0' → d = 0 := by decide
  exact hall d h hz

/-- A text that does not open with an ASCII digit. -/
def NoDigit (t : Text) : Prop :=
  ∀ c ∈ t.head?, asciiDigit? c = none

theorem asciiDigits_append {ds : List Nat} (h : ∀ d ∈ ds, d < 10) {rest : Text}
    (hr : NoDigit rest) :
    Json.asciiDigits (ds.map Text.digitChar ++ rest) = (ds, rest) := by
  induction ds with
  | nil =>
      cases rest with
      | nil => rfl
      | cons c s =>
          have hc := hr c rfl
          simp only [List.map_nil, List.nil_append, Json.asciiDigits, hc]
  | cons d ds ih =>
      have hd := asciiDigit?_digitChar (h d List.mem_cons_self)
      have hds := ih fun e he => h e (List.mem_cons_of_mem d he)
      simp only [List.map_cons, List.cons_append, Json.asciiDigits, hd, hds]

/-! ## Without the zeros at the end

Zeros at the end count as a power of ten, and taking them off is how a double's
digits become the shortest. -/

theorem exists_eq_dropTrailing_append (c : CodePoint) (t : Text) :
    ∃ k, t = Text.dropTrailing c t ++ Text.replicate k c := by
  refine ⟨(t.reverse.takeWhile (· == c)).length, ?_⟩
  have hsplit :=
    List.takeWhile_append_dropWhile (p := (· == c)) (l := t.reverse)
  have hzeros : t.reverse.takeWhile (· == c) =
      List.replicate (t.reverse.takeWhile (· == c)).length c := by
    refine List.eq_replicate_iff.2 ⟨rfl, fun a ha => ?_⟩
    exact eq_of_beq (List.all_eq_true.1 List.all_takeWhile a ha)
  have hrev := congrArg List.reverse hsplit
  rw [List.reverse_append, List.reverse_reverse, hzeros, List.reverse_replicate]
    at hrev
  exact hrev.symm

/-- The digits of a number other than zero that are written: all but the zeros
at the end. -/
theorem exists_significant {n : Nat} (h : 0 < n) :
    ∃ d ds k, decimalDigits n = (d :: ds) ++ List.replicate k 0 ∧ 0 < d ∧
      Text.dropTrailing '0' (Text.ofNat n) = (d :: ds).map Text.digitChar := by
  obtain ⟨k, hk⟩ := exists_eq_dropTrailing_append '0' (Text.ofNat n)
  obtain ⟨d, ds, hd, hpos⟩ := exists_decimalDigits_eq h
  rw [ofNat_eq_map] at hk ⊢
  obtain ⟨es, zs, hes, hmap, hzs⟩ := List.map_eq_append_iff.1 hk
  have hzero : zs = List.replicate k 0 := by
    rw [List.eq_replicate_iff]
    have hlen := congrArg List.length hzs
    rw [List.length_map, List.length_replicate] at hlen
    refine ⟨hlen, fun z hz => ?_⟩
    have hlt := lt_ten_of_mem_decimalDigits (hes ▸ List.mem_append_right es hz)
    refine eq_zero_of_digitChar hlt ?_
    have hmem : Text.digitChar z ∈ Text.replicate k '0' :=
      hzs ▸ List.mem_map_of_mem hz
    exact List.eq_of_mem_replicate hmem
  cases es with
  | nil =>
      -- The first digit would be among the zeros.
      rw [List.nil_append, hd, hzero] at hes
      have hmem : d ∈ List.replicate k 0 := hes ▸ List.mem_cons_self
      rw [List.eq_of_mem_replicate hmem] at hpos
      exact absurd hpos (Nat.lt_irrefl 0)
  | cons e es =>
      rw [hd, List.cons_append, List.cons.injEq] at hes
      refine ⟨e, es, k, ?_, hes.1 ▸ hpos, hmap.symm⟩
      rw [hd, hes.1, hes.2, hzero, List.cons_append]

end RowSql
