import RowSql.Filter.Basic
import RowSql.Proofs.Filter.Unwrap

/-!
# Disjunctions of conjunctions

A filter that is written as branches joined by OR, each of them leaves joined by
AND, and each branch in as many pairs of parentheses as one likes, means what it
says: it holds of a record when all the leaves of some branch do. The leaves may
be any texts that a scan can tell from what stands around them.
-/

namespace RowSql.Filter

open Text

/-! ## Judging lists

A list is judged from the left and only as far as it must be. When no test fails
it does not matter how far, and the verdict is that of all of them. -/

section

variable {α ε : Type} {test : α → Except ε Bool} {as : List α}

/-- When no test fails to give an answer, all of them are asked for it. -/
theorem allHold_eq_ok (h : ∀ a ∈ as, ∃ b, test a = .ok b) :
    ∃ b, allHold test as = .ok b ∧
      (b = true ↔ ∀ a ∈ as, test a = .ok true) := by
  induction as with
  | nil => exact ⟨true, rfl, by simp⟩
  | cons a as ih =>
      rw [List.forall_mem_cons] at h
      obtain ⟨⟨b, hb⟩, has⟩ := h
      obtain ⟨b', hb', hiff⟩ := ih has
      simp only [allHold, hb, List.forall_mem_cons]
      cases b with
      | true => exact ⟨b', hb', by simp [hiff]⟩
      | false => exact ⟨false, rfl, by simp⟩

theorem anyHolds_eq_ok (h : ∀ a ∈ as, ∃ b, test a = .ok b) :
    ∃ b, anyHolds test as = .ok b ∧
      (b = true ↔ ∃ a ∈ as, test a = .ok true) := by
  induction as with
  | nil => exact ⟨false, rfl, by simp⟩
  | cons a as ih =>
      rw [List.forall_mem_cons] at h
      obtain ⟨⟨b, hb⟩, has⟩ := h
      obtain ⟨b', hb', hiff⟩ := ih has
      simp only [anyHolds, hb]
      cases b with
      | true => exact ⟨true, rfl, by simp [hb]⟩
      | false => exact ⟨b', hb', by simp [hiff, hb]⟩

end

/-! ## Printing

What a leaf must be like for the scanner not to cut it, and for unwrapping to
stop at it, is all that is known of a leaf here. The leaves of a branch are
operands of AND, and the branches operands of OR. -/

/-- The text of a leaf, as far as its surroundings go. Quotes and parentheses
are those of a scan, which are the plain ones where no backslash stands before a
quote. -/
structure LeafText (t : Text) : Prop where
  ne_nil : t ≠ []
  trimmed : Trimmed t
  bare : ∀ s, t ≠ .char '(' :: s
  balanced : Scan.Balanced t
  noAnd : ¬ HoldsWord "AND".toText t
  noOr : ¬ HoldsWord "OR".toText t

instance (t : Text) : Decidable (LeafText t) :=
  decidable_of_iff (t ≠ [] ∧ Trimmed t ∧ t.head? ≠ some (.char '(') ∧
    Scan.Balanced t ∧
      ¬ HoldsWord "AND".toText t ∧ ¬ HoldsWord "OR".toText t) <| by
    constructor
    · rintro ⟨hne, htrim, hhead, hbal, hand, hor⟩
      exact ⟨hne, htrim, fun s hs => hhead (by rw [hs]; rfl), hbal, hand, hor⟩
    · intro h
      refine ⟨h.ne_nil, h.trimmed, fun hhead => ?_, h.balanced, h.noAnd, h.noOr⟩
      obtain ⟨s, hs⟩ := List.head?_eq_some_iff.1 hhead
      exact h.bare s hs

/-- The leaves of a branch joined by AND, and parentheses around all of them. -/
def PrintsBranch (ls : List Text) (t : Text) : Prop :=
  ∃ u, Joined "AND".toText ls u ∧ Wrapped u t

/-- A branch as it is written. -/
structure WrittenBranch where
  leaves : List Text
  text : Text
  leafTexts : ∀ l ∈ leaves, LeafText l
  prints : PrintsBranch leaves text

theorem isKeyword_and : IsKeyword "AND".toText := by decide

theorem isKeyword_or : IsKeyword "OR".toText := by decide

theorem LeafText.operand_and {t : Text} (h : LeafText t) :
    Operand "AND".toText t :=
  ⟨h.ne_nil, h.trimmed, h.balanced, h.noAnd⟩

theorem LeafText.operand_or {t : Text} (h : LeafText t) :
    Operand "OR".toText t :=
  ⟨h.ne_nil, h.trimmed, h.balanced, h.noOr⟩

/-! ## Reading back

A printed filter is taken apart in the order in which it was put together: cut
at OR into the branches, each of which is unwrapped and cut at AND into the
leaves that it was printed from. -/

section

variable {ls : List Text} {t : Text} (hl : ∀ l ∈ ls, LeafText l)
include hl

theorem PrintsBranch.operand (h : PrintsBranch ls t) :
    Operand "OR".toText t := by
  obtain ⟨u, hu, ht⟩ := h
  exact ht.operand isKeyword_or
    (hu.operand isKeyword_or isKeyword_and (by decide) fun l hm =>
      (hl l hm).operand_or)

/-- Joined leaves begin with the first of them, so with no parenthesis. -/
theorem unwrapParens_joined (h : Joined "AND".toText ls t) :
    unwrapParens t = t := by
  refine unwrapParens_of_head
    (h.trimmed fun l hm => ⟨(hl l hm).ne_nil, (hl l hm).trimmed⟩) ?_
  cases h with
  | single t => exact (hl t List.mem_cons_self).bare
  | @cons u c r us hc hr =>
      have hu := hl u List.mem_cons_self
      obtain ⟨d, u, rfl⟩ := List.exists_cons_of_ne_nil hu.ne_nil
      intro s hs
      rw [List.cons_append, List.cons_append, List.cons.injEq] at hs
      exact hu.bare u (by rw [hs.1])

/-- The leaves of a printed branch are those it was printed from. -/
theorem PrintsBranch.leaves_eq (h : PrintsBranch ls t) : leaves t = ls := by
  obtain ⟨u, hu, ht⟩ := h
  have hsplit : splitLogical "AND".toText u = ls :=
    splitLogical_joined isKeyword_and (by decide) hu fun l hm =>
      (hl l hm).operand_and
  rw [leaves, ht.unwrapParens_eq, unwrapParens_joined hl hu, hsplit]
  have hself : ∀ l ∈ ls, unwrapParens l = l :=
    fun l hm => unwrapParens_of_head (hl l hm).trimmed (hl l hm).bare
  rw [List.map_congr_left hself, List.map_id']

end

/-- A printed branch holds when all its leaves do. -/
theorem WrittenBranch.branchHolds_eq_ok {b : WrittenBranch} {r : Record}
    (hr : ∀ l ∈ b.leaves, ∃ v, condition l r = .ok v) :
    ∃ v, branchHolds b.text r = .ok v ∧
      (v = true ↔ ∀ l ∈ b.leaves, condition l r = .ok true) := by
  rw [branchHolds, b.prints.leaves_eq b.leafTexts]
  exact allHold_eq_ok hr

/-- Written branches that are joined by OR hold of a record when all the leaves
of some branch do. -/
theorem holds_of_joined {bs : List WrittenBranch} {t : Text} {r : Record}
    (ht : Joined "OR".toText (bs.map WrittenBranch.text) t)
    (hr : ∀ b ∈ bs, ∀ l ∈ b.leaves, ∃ v, condition l r = .ok v) :
    ∃ v, holds t r = .ok v ∧
      (v = true ↔ ∃ b ∈ bs, ∀ l ∈ b.leaves, condition l r = .ok true) := by
  have hsplit : branches t = bs.map WrittenBranch.text := by
    refine splitLogical_joined isKeyword_or (by decide) ht ?_
    rw [List.forall_mem_map]
    exact fun b _ => b.prints.operand b.leafTexts
  have hjudge : ∀ u ∈ bs.map WrittenBranch.text, ∃ v,
      branchHolds u r = .ok v := by
    rw [List.forall_mem_map]
    intro b hb
    obtain ⟨v, hv, _⟩ := WrittenBranch.branchHolds_eq_ok (hr b hb)
    exact ⟨v, hv⟩
  obtain ⟨v, hv, hiff⟩ := anyHolds_eq_ok hjudge
  refine ⟨v, by rw [holds, hsplit, hv], hiff.trans ?_⟩
  have hbranch : ∀ b ∈ bs, (branchHolds b.text r = .ok true ↔
      ∀ l ∈ b.leaves, condition l r = .ok true) := by
    intro b hb
    obtain ⟨w, hw, hwiff⟩ := WrittenBranch.branchHolds_eq_ok (hr b hb)
    rw [← hwiff, hw, Except.ok.injEq]
  constructor
  · rintro ⟨u, hu, htrue⟩
    obtain ⟨b, hb, rfl⟩ := List.mem_map.1 hu
    exact ⟨b, hb, (hbranch b hb).1 htrue⟩
  · rintro ⟨b, hb, htrue⟩
    exact ⟨b.text, List.mem_map.2 ⟨b, hb, rfl⟩, (hbranch b hb).2 htrue⟩

/-- A branch of two leaves in two pairs of parentheses. Quoted words and marks
do not count. -/
def groupedBranch : WrittenBranch where
  leaves := ["a = 'p'".toText, "b IN ('x', 'OR (')".toText]
  text := "( (a = 'p' and b IN ('x', 'OR (')) )".toText
  leafTexts := by decide
  prints := by
    have hand : IsConnective "AND".toText " and ".toText :=
      ⟨" ".toText, "and".toText, " ".toText, rfl,
        by decide, by decide, by decide, by decide, by decide⟩
    exact ⟨_, .cons hand (.single _),
      .wrap blanks_space (.wrap blanks_nil .bare blanks_nil) blanks_space⟩

/-- A branch of one leaf. -/
def bareBranch : WrittenBranch where
  leaves := ["c = \"and )\"".toText]
  text := "c = \"and )\"".toText
  leafTexts := by decide
  prints := ⟨_, .single _, .bare⟩

theorem holds_of_joined_branches :
    holds "( (a = 'p' and b IN ('x', 'OR (')) )\toR c = \"and )\"".toText
        (.ofFields [("a".toText, .text "p".toText),
          ("b".toText, .text "OR (".toText)]) =
      .ok true := by
  have hor : IsConnective "OR".toText "\toR ".toText :=
    ⟨"\t".toText, "oR".toText, " ".toText, rfl,
      by decide, by decide, by decide, by decide, by decide⟩
  have hjoined :
      Joined "OR".toText ([groupedBranch, bareBranch].map WrittenBranch.text)
        "( (a = 'p' and b IN ('x', 'OR (')) )\toR c = \"and )\"".toText :=
    .cons hor (.single _)
  obtain ⟨v, hv, hiff⟩ := holds_of_joined
    (r := .ofFields [("a".toText, .text "p".toText),
      ("b".toText, .text "OR (".toText)])
    hjoined (by
      simp only [List.forall_mem_cons, groupedBranch, bareBranch]
      exact ⟨⟨⟨true, rfl⟩, ⟨true, rfl⟩, by simp⟩, ⟨⟨false, rfl⟩, by simp⟩,
        by simp⟩)
  have hall : ∀ l ∈ groupedBranch.leaves, condition l
        (.ofFields [("a".toText, .text "p".toText),
          ("b".toText, .text "OR (".toText)]) =
      .ok true := by
    simp only [List.forall_mem_cons, groupedBranch]
    exact ⟨rfl, rfl, by simp⟩
  rw [hiff.2 ⟨groupedBranch, List.mem_cons_self, hall⟩] at hv
  exact hv

end RowSql.Filter
