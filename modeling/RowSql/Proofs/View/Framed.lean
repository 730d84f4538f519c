import RowSql.View.Table
import RowSql.Proofs.Text.Trim

/-!
# Lines of a table

A line across the table and a line of texts are built in two different ways, one
with signs and one with bars and spaces. Both are texts framed by a mark: the
mark, then each text with the mark behind it. Where the marks of such a line
stand depends on the lengths of the texts only, so two lines of texts that are
as long have their marks below each other, and what stands between two marks of
one can be cut out at the offsets of the marks of the other.
-/

namespace RowSql.View

open Text

/-- The offsets at which a character stands in a text, in order. -/
def offsets (c : CodePoint) (t : Text) : List Nat :=
  (List.range t.length).filter fun i => t[i]? == some c

/-- Texts with a mark before, between and behind them. -/
def framed (mark : CodePoint) : List Text → Text
  | [] => [mark]
  | x :: xs => mark :: (x ++ framed mark xs)

/-- The offsets of the marks around texts of some lengths. -/
def markOffsets : List Nat → List Nat
  | [] => [0]
  | n :: ns => 0 :: (markOffsets ns).map (n + 1 + ·)

/-! ## Offsets

The offsets of a mark in a text are found part by part. A text without the mark
only moves those behind it. -/

theorem offsets_cons (c d : CodePoint) (s : Text) :
    offsets c (d :: s) =
      (if d = c then [0] else []) ++ (offsets c s).map (· + 1) := by
  have htail :
      (fun i => (d :: s)[i]? == some c) ∘ Nat.succ = fun i => s[i]? == some c :=
      rfl
  rw [offsets, List.length_cons, List.range_succ_eq_map, List.filter_cons,
    List.filter_map, htail]
  by_cases h : d = c
  · simp [h, offsets]
  · simp [h, offsets]

theorem offsets_append (c : CodePoint) (s t : Text) :
    offsets c (s ++ t) = offsets c s ++ (offsets c t).map (s.length + ·) := by
  induction s with
  | nil => simp [offsets]
  | cons d s ih =>
      have hshift (i : Nat) : s.length + i + 1 = s.length + 1 + i := by omega
      rw [List.cons_append, offsets_cons, offsets_cons, ih, List.map_append,
        List.map_map, List.append_assoc, List.length_cons]
      simp only [Function.comp_def, hshift]

theorem offsets_eq_nil {c : CodePoint} {t : Text} (h : c ∉ t) :
    offsets c t = [] := by
  rw [offsets, List.filter_eq_nil_iff]
  intro i _ hi
  exact h (List.mem_of_getElem? (beq_iff_eq.1 hi))

theorem length_markOffsets (ns : List Nat) :
    (markOffsets ns).length = ns.length + 1 := by
  induction ns with
  | nil => rfl
  | cons n ns ih =>
      rw [markOffsets, List.length_cons, List.length_map, ih, List.length_cons]

theorem getElem?_markOffsets_zero (ns : List Nat) :
    (markOffsets ns)[0]? = some 0 := by
  cases ns <;> rfl

/-! ## Framed texts

In a framed text the marks are at the ends and between the parts, as long as no
part has one. Then the offsets depend on the widths alone, and the texts between
two marks are the parts. -/

variable {mark : CodePoint} {xs : List Text}

theorem offsets_framed (h : ∀ x ∈ xs, mark ∉ x) :
    offsets mark (framed mark xs) = markOffsets (xs.map List.length) := by
  induction xs with
  | nil => simp [framed, offsets, markOffsets]
  | cons x xs ih =>
      rw [List.forall_mem_cons] at h
      have hshift (i : Nat) : x.length + i + 1 = x.length + 1 + i := by omega
      rw [framed, offsets_cons, if_pos rfl, offsets_append,
        offsets_eq_nil h.1, ih h.2, List.nil_append, List.map_map,
        List.map_cons, markOffsets, List.singleton_append]
      simp only [Function.comp_def, hshift]

/-- How long a framed text is depends on the lengths of the texts. -/
theorem length_framed_congr {mark' : CodePoint} {ys : List Text}
    (h : xs.map List.length = ys.map List.length) :
    (framed mark xs).length = (framed mark' ys).length := by
  induction xs generalizing ys with
  | nil =>
      rw [List.map_eq_nil_iff.1 h.symm]
      rfl
  | cons x xs ih =>
      obtain ⟨y, ys, rfl, hy, hys⟩ := List.map_eq_cons_iff.1 h.symm
      rw [framed, framed, List.length_cons, List.length_append,
        List.length_cons, List.length_append, ih hys.symm, hy]

/-- At the offsets of the marks stands the mark. -/
theorem getElem?_framed {k : Nat} (h : k ∈ markOffsets (xs.map List.length)) :
    (framed mark xs)[k]? = some mark := by
  induction xs generalizing k with
  | nil =>
      rw [List.mem_singleton.1 h]
      rfl
  | cons x xs ih =>
      rcases List.mem_cons.1 h with rfl | h
      · rfl
      · obtain ⟨i, hi, rfl⟩ := List.mem_map.1 h
        have hpast : x.length + 1 + i = x.length + i + 1 := by omega
        rw [framed, hpast, List.getElem?_cons_succ,
          List.getElem?_append_right (by omega), Nat.add_sub_cancel_left]
        exact ih hi

/-- Between the offsets of two marks stands one of the texts. -/
theorem extract_framed {j a b : Nat} {x : Text} (hx : xs[j]? = some x)
    (ha : (markOffsets (xs.map List.length))[j]? = some a)
    (hb : (markOffsets (xs.map List.length))[j + 1]? = some b) :
    (framed mark xs).extract (a + 1) b = x := by
  induction xs generalizing j a b with
  | nil => cases hx
  | cons y ys ih =>
      rw [List.map_cons, markOffsets, List.getElem?_cons_succ,
        List.getElem?_map] at hb
      obtain ⟨b', hb', hshift⟩ := Option.map_eq_some_iff.1 hb
      cases j with
      | zero =>
          rw [getElem?_markOffsets_zero] at hb'
          cases hb'
          cases ha
          cases hx
          rw [← hshift]
          simp [framed]
      | succ j =>
          rw [List.map_cons, markOffsets, List.getElem?_cons_succ,
            List.getElem?_map] at ha
          obtain ⟨a', ha', hstart⟩ := Option.map_eq_some_iff.1 ha
          have hpast :
              y.length + 1 + a' + 1 = (mark :: y).length + (a' + 1) := by
            rw [List.length_cons]
            omega
          have hlen :
              y.length + 1 + b' - (y.length + 1 + a' + 1) = b' - (a' + 1) := by
              omega
          rw [← ih hx ha' hb', ← hstart, ← hshift, List.extract, hlen,
            hpast, framed, ← List.cons_append, List.drop_length_add_append]

/-- A framed text is what is between marks, with the mark in between. -/
theorem between_join (hne : xs ≠ []) :
    between mark (join [mark] xs) = framed mark xs := by
  induction xs with
  | nil => exact absurd rfl hne
  | cons x xs ih =>
      cases xs with
      | nil => rfl
      | cons y ys =>
          rw [framed, ← ih (List.cons_ne_nil y ys)]
          simp [between, join]

/-- Spaces may stand next to the mark or around the texts. -/
theorem join_spaced (hne : xs ≠ []) :
    join [mark] (xs.map (between ' ')) =
      between ' ' (join [.char ' ', mark, .char ' '] xs) := by
  induction xs with
  | nil => exact absurd rfl hne
  | cons x xs ih =>
      cases xs with
      | nil => rfl
      | cons y ys =>
          have hrest := ih (List.cons_ne_nil y ys)
          rw [List.map_cons] at hrest
          rw [List.map_cons, List.map_cons, join, hrest]
          simp [between, join]

end RowSql.View
