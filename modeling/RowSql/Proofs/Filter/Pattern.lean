import Mathlib.Data.List.Forall2
import RowSql.Filter.Pattern

/-!
# What a pattern covers

A pattern is matched from left to right, and behind `%` it is tried on every end
of the text. Nothing of that search is left in what it finds. A pattern covers a
text exactly when the text can be cut into pieces, one for each character of the
pattern, such that every character stands for its piece. The cut is made one
character at a time, so what is proved first is what a single character does at
the head of a text.
-/

namespace RowSql.Filter

open Text

/-- The pieces of a text that a pattern character stands for. -/
inductive StandsFor : CodePoint → Text → Prop
  | run (piece : Text) : StandsFor '%' piece
  | one (d : CodePoint) : StandsFor '_' [d]
  | letter {c d : CodePoint} (hrun : c ≠ '%') (hone : c ≠ '_')
      (h : sameLetter c d = true) :
      StandsFor c [d]

/-- A text cut into pieces, one for each character of a pattern in order. -/
def IsCut (pattern t : Text) (pieces : List Text) : Prop :=
  t = pieces.flatten ∧ List.Forall₂ StandsFor pattern pieces

namespace Pattern

variable {p : Pattern} {t : Text}

theorem covers_anyRun :
    covers (.anyRun :: p) t = true ↔
      ∃ piece rest, t = piece ++ rest ∧ covers p rest = true := by
  rw [covers, List.any_eq_true]
  constructor
  · rintro ⟨n, -, h⟩
    exact ⟨t.take n, t.drop n, (List.take_append_drop n t).symm, h⟩
  · rintro ⟨piece, rest, rfl, h⟩
    refine ⟨piece.length, ?_, by rwa [List.drop_left]⟩
    rw [List.mem_range, List.length_append]
    omega

theorem covers_anyOne :
    covers (.anyOne :: p) t = true ↔
      ∃ d rest, t = d :: rest ∧ covers p rest = true := by
  cases t <;> simp [covers]

theorem covers_letter {c : CodePoint} :
    covers (.letter c :: p) t = true ↔
      ∃ d rest, t = d :: rest ∧ sameLetter c d = true ∧
        covers p rest = true := by
  cases t <;> simp [covers]

/-- One character is put in front of a pattern by one piece in front of the
text. -/
theorem covers_ofChar {c : CodePoint} :
    covers (.ofChar c :: p) t = true ↔
      ∃ piece rest, t = piece ++ rest ∧ StandsFor c piece ∧
        covers p rest = true := by
  rw [Wildcard.ofChar]
  split
  · next hrun =>
      subst hrun
      rw [covers_anyRun]
      constructor
      · rintro ⟨piece, rest, rfl, h⟩
        exact ⟨piece, rest, rfl, .run piece, h⟩
      · rintro ⟨piece, rest, rfl, _, h⟩
        exact ⟨piece, rest, rfl, h⟩
  · next hrun =>
      split
      · next hone =>
          subst hone
          rw [covers_anyOne]
          constructor
          · rintro ⟨d, rest, rfl, h⟩
            exact ⟨[d], rest, rfl, .one d, h⟩
          · rintro ⟨piece, rest, rfl, hpiece, h⟩
            cases hpiece with
            | one d => exact ⟨d, rest, rfl, h⟩
            | letter _ hone _ => exact absurd rfl hone
      · next hone =>
          rw [covers_letter]
          constructor
          · rintro ⟨d, rest, rfl, hd, h⟩
            exact ⟨[d], rest, rfl, .letter hrun hone hd, h⟩
          · rintro ⟨piece, rest, rfl, hpiece, h⟩
            cases hpiece with
            | run _ => exact absurd rfl hrun
            | one _ => exact absurd rfl hone
            | @letter _ d _ _ hd => exact ⟨d, rest, rfl, hd, h⟩

end Pattern

/-- A pattern covers a text exactly when the text can be cut into pieces for
which the characters of the pattern stand. -/
theorem covers_iff_exists_cut (pattern t : Text) :
    (Pattern.ofText pattern).covers t = true ↔
      ∃ pieces, IsCut pattern t pieces := by
  induction pattern generalizing t with
  | nil =>
      show t.isEmpty = true ↔ _
      simp [IsCut]
  | cons c pattern ih =>
      show Pattern.covers (.ofChar c :: Pattern.ofText pattern) t = true ↔ _
      rw [Pattern.covers_ofChar]
      constructor
      · rintro ⟨piece, rest, rfl, hpiece, h⟩
        obtain ⟨pieces, rfl, hpieces⟩ := (ih rest).1 h
        exact ⟨piece :: pieces, rfl, .cons hpiece hpieces⟩
      · rintro ⟨pieces, rfl, hpieces⟩
        cases hpieces with
        | @cons _ piece _ pieces hpiece hpieces =>
            exact ⟨piece, pieces.flatten, rfl, hpiece,
              (ih _).2 ⟨pieces, rfl, hpieces⟩⟩

/-- The run before a b must not end at the first b. -/
example : (Pattern.ofText "%b.".toText).covers "Ab\nB.".toText = true := by
  decide

end RowSql.Filter
