import RowSql.Proofs.Filter.Cut

/-!
# Operands of a connective

A text can stand between two connectives when it is trimmed, closes what it
opens, and does not hold the word of the connective on its own. Such a text is
one piece for the scanner, and operands that are joined by connectives are cut
apart into exactly themselves. Operands of one connective that are joined by
another are an operand of the first again, which is how a conjunction stands in
a disjunction.
-/

namespace RowSql.Filter

open Text

/-- A word stands in a text on its own: outside of quotes and parentheses, with
a blank or nothing on either side of it. -/
def HoldsWord (word t : Text) : Prop :=
  ∃ s x r, t = s ++ x ++ r ∧ Spells word x ∧ (Scan.start.run s).atTop = true ∧
    Bounded s.reverse ∧ Bounded r

instance (word t : Text) : Decidable (HoldsWord word t) :=
  decidable_of_iff (∃ n ≤ t.length, Spells word ((t.drop n).take word.length) ∧
      (Scan.start.run (t.take n)).atTop = true ∧ Bounded (t.take n).reverse ∧
      Bounded (t.drop (n + word.length))) <| by
    constructor
    · rintro ⟨n, _, hx, htop, hs, hr⟩
      refine ⟨t.take n, (t.drop n).take word.length, t.drop (n + word.length),
        ?_, hx, htop, hs, hr⟩
      rw [List.append_assoc, ← List.drop_drop, List.take_append_drop,
        List.take_append_drop]
    · rintro ⟨s, x, r, rfl, hx, htop, hs, hr⟩
      have hlen := hx.length_eq
      refine ⟨s.length,
        by simp only [List.length_append]; omega, ?_, ?_, ?_, ?_⟩
      · rwa [List.append_assoc, List.drop_left, ← hlen, List.take_left]
      · rwa [List.append_assoc, List.take_left]
      · rwa [List.append_assoc, List.take_left]
      · rwa [← List.drop_drop, List.append_assoc, List.drop_left, ← hlen,
          List.drop_left]

/-- What can stand between two connectives of one kind. -/
structure Operand (word t : Text) : Prop where
  ne_nil : t ≠ []
  trimmed : Trimmed t
  balanced : Scan.Balanced t
  free : ¬ HoldsWord word t

/-- Texts with a connective between neighbours. There is at least one text. -/
inductive Joined (word : Text) : List Text → Text → Prop
  | single (t : Text) : Joined word [t] t
  | cons {t c r : Text} {ts : List Text} (hc : IsConnective word c)
      (hr : Joined word ts r) :
      Joined word (t :: ts) (t ++ c ++ r)

/-! ## Where a word can stand

A word that stands on its own has a blank or an end on either side. A text
without blanks on one side of a blank is therefore all before it or all behind
it. -/

/-- A text without blanks stands on one side of a blank. -/
theorem exists_of_solid_append {a r s x t : Text} {c : CodePoint}
    (hx : ∀ d ∈ x, isBlank d = false) (hc : isBlank c = true)
    (h : a ++ c :: r = s ++ x ++ t) :
    (∃ t', a = s ++ x ++ t' ∧ t = t' ++ c :: r) ∨ ∃ s',
    s = a ++ c :: s' ∧ r = s' ++ x ++ t := by
  have hcx : c ∉ x := by
    intro hmem
    rw [hx c hmem] at hc
    cases hc
  rw [List.append_assoc] at h
  rcases List.append_eq_append_iff.1 h with ⟨w, rfl, hw⟩ | ⟨w, rfl, hw⟩
  · cases w with
    | nil =>
        cases x with
        | nil =>
            left
            refine ⟨[], ?_, hw.symm⟩
            simp
        | cons d x =>
            rw [List.nil_append, List.cons_append, List.cons.injEq] at hw
            exact absurd (hw.1 ▸ List.mem_cons_self) hcx
    | cons d w =>
        rw [List.cons_append, List.cons.injEq] at hw
        obtain ⟨rfl, rfl⟩ := hw
        right
        exact ⟨w, rfl, (List.append_assoc w x t).symm⟩
  · rcases List.append_eq_append_iff.1 hw with ⟨v, rfl, rfl⟩ | ⟨v, rfl, hv⟩
    · left
      exact ⟨v, (List.append_assoc s x v).symm, rfl⟩
    · cases v with
      | nil =>
          left
          refine ⟨[], ?_, hv.symm⟩
          simp
      | cons d v =>
          rw [List.cons_append, List.cons.injEq] at hv
          exact absurd (List.mem_append_right w (hv.1 ▸ List.mem_cons_self)) hcx

/-- Another word does not hold a word. -/
theorem not_holdsWord_of_spells {word other x : Text} (ho : IsKeyword other)
    (hne : ¬ Spells word other) (hx : Spells other x) : ¬ HoldsWord word x := by
  rintro ⟨s, y, r, rfl, hy, _, hs, hr⟩
  have hsolid : ∀ c ∈ s ++ y ++ r, isBlank c = false :=
    fun c hc => ho.isBlank_of_mem hx hc
  simp only [List.forall_mem_append] at hsolid
  have hsnil : s.reverse = [] :=
    hs.eq_nil (trimmed_of_solid fun c hc =>
      hsolid.1.1 c (List.mem_reverse.1 hc)).head
  rw [List.reverse_eq_nil_iff] at hsnil
  rw [hsnil, hr.eq_nil (trimmed_of_solid hsolid.2).head, List.nil_append,
    List.append_nil] at hx
  exact hne (hx.symm.trans hy)

/-! ## Joining

What is joined of trimmed texts that are not empty is so itself. -/

theorem Joined.ne_nil {word : Text} {us : List Text} {t : Text}
    (h : Joined word us t) (hus : ∀ u ∈ us, u ≠ []) : t ≠ [] := by
  cases h with
  | single t => exact hus t List.mem_cons_self
  | cons hc hr =>
      intro hn
      simp only [List.append_assoc] at hn
      exact hus _ List.mem_cons_self (List.append_eq_nil_iff.1 hn).1

theorem Joined.trimmed {word : Text} {us : List Text} {t : Text}
    (h : Joined word us t) (hus : ∀ u ∈ us, u ≠ [] ∧ Trimmed u) :
    Trimmed t := by
  induction h with
  | single t => exact (hus t List.mem_cons_self).2
  | cons hc hr ih =>
      rw [List.forall_mem_cons] at hus
      exact hus.1.2.append hus.1.1 (ih hus.2)
        (hr.ne_nil fun u hu => (hus.2 u hu).1)

/-! ## Parts of an operand

Whether a text holds a word can be asked of its parts, as long as they are
parted at blanks outside of quotes and parentheses. -/

section

variable {word : Text} (hw : IsKeyword word)
include hw

theorem not_holdsWord_nil : ¬ HoldsWord word [] := by
  rintro ⟨s, x, r, h, hx, _⟩
  rw [List.append_assoc] at h
  have hnil := (List.append_eq_nil_iff.1 (List.append_eq_nil_iff.1 h.symm).2).1
  exact hw.spelling_ne_nil hx hnil

/-- A blank behind a closed part parts the places where a word can stand. -/
theorem holdsWord_append_blank {a r : Text} {c : CodePoint}
    (hc : isBlank c = true) (ha : (Scan.start.run a).atTop = true) :
    HoldsWord word (a ++ c :: r) ↔ HoldsWord word a ∨ HoldsWord word r := by
  have hplain := Scan.plain_of_isBlank hc
  constructor
  · rintro ⟨s, x, t, h, hx, hs, hsb, htb⟩
    rcases exists_of_solid_append (fun d hd => hw.isBlank_of_mem hx hd)
      hc h with
      ⟨t', rfl, rfl⟩ | ⟨s', rfl, rfl⟩
    · exact .inl ⟨s, x, t', rfl, hx, hs, hsb, htb.of_append⟩
    · rw [Scan.run_append_plain ha hplain] at hs
      rw [List.reverse_append, List.reverse_cons, List.append_assoc] at hsb
      exact .inr ⟨s', x, t, rfl, hx, hs, hsb.of_append, htb⟩
  · rintro (⟨s, x, t, rfl, hx, hs, hsb, htb⟩ | ⟨s, x, t, rfl, hx, hs, hsb, htb⟩)
    · exact ⟨s, x, t ++ c :: r,
        by simp, hx, hs, hsb, htb.append (bounded_cons.2 hc)⟩
    · refine ⟨a ++ c :: s, x, t, by simp, hx, ?_, ?_, htb⟩
      · rw [Scan.run_append_plain ha hplain]
        exact hs
      · rw [List.reverse_append, List.reverse_cons, List.append_assoc]
        exact hsb.append (bounded_cons.2 hc)

theorem holdsWord_append_blanks {a b r : Text} (hb : Blanks b) (hne : b ≠ [])
    (ha : (Scan.start.run a).atTop = true) :
    HoldsWord word (a ++ (b ++ r)) ↔ HoldsWord word a ∨ HoldsWord word r := by
  induction b generalizing a with
  | nil => exact absurd rfl hne
  | cons c b ih =>
      rw [blanks_cons] at hb
      rw [List.cons_append, holdsWord_append_blank hw hb.1 ha]
      cases b with
      | nil => rw [List.nil_append]
      | cons d b =>
          have hrest := ih (a := []) hb.2 (List.cons_ne_nil d b) rfl
          rw [List.nil_append] at hrest
          rw [hrest, or_iff_right (not_holdsWord_nil hw)]

/-! ## One operand

An operand is uncut in the place it has: with nothing behind it or with the
blank of the next connective. -/

/-- An operand is uncut where nothing or a blank follows it: a connective that
begins in it would have its word there on its own. -/
theorem Operand.uncut {t rest : Text} (ht : Operand word t)
    (hrest : Bounded rest) :
    Uncut word .start rest t := by
  refine uncut_of_forall fun u c v htv htop => ?_
  cases hr : afterConnective? word (c :: v ++ rest) with
  | none => rfl
  | some r =>
      have hlast : FlushRight (c :: v) :=
        (htv ▸ ht.trimmed.last : FlushRight (u ++ c :: v)).of_append
      obtain ⟨d, hd, heq, _⟩ := (afterConnective?_eq_some_iff hw).1 hr
      obtain ⟨b, x, s, hbxs, hb, hbne, hx, hs⟩ :=
        exists_of_connective_append hw hlast (List.cons_ne_nil c v) hrest hd heq
      refine absurd ⟨u ++ b, x, s, ?_, hx, ?_, ?_, hs⟩ ht.free
      · rw [htv, hbxs]
        simp
      · -- the blanks leave the scan where their first one brought it
        cases b with
        | nil => exact absurd rfl hbne
        | cons e b =>
            simp only [List.cons_append, List.cons.injEq] at hbxs
            obtain ⟨rfl, _⟩ := hbxs
            rw [blanks_cons] at hb
            rw [Scan.run_append] at htop
            rw [Scan.run_append, Scan.run_cons,
              Scan.step_eq_of_atTop (Scan.plain_of_isBlank hb.1) htop,
              Scan.run_blanks hb.2]
            rfl
      · rw [List.reverse_append]
        exact hb.reverse.bounded (fun hn => hbne (List.reverse_eq_nil_iff.1 hn))

/-! ## Operands joined

The operands of AND, joined, hold no OR outside of parentheses, since neither an
operand nor an AND does. That makes a conjunction an operand of OR. -/

theorem IsConnective.not_holdsWord_append {other a c r : Text}
    (ho : IsKeyword other) (hne : ¬ Spells word other)
    (hc : IsConnective other c) (ha : (Scan.start.run a).atTop = true)
    (haw : ¬ HoldsWord word a) (hr : ¬ HoldsWord word r) :
    ¬ HoldsWord word (a ++ c ++ r) := by
  obtain ⟨b, x, b', rfl, hb, hbne, hx, hb', hb'ne⟩ := hc
  have hplain : (Scan.start.run x).atTop = true := by
    rw [show Scan.start = Scan.outside 0 from rfl,
      Scan.run_plain fun d hd => Scan.plain_of_spells ho hx hd]
    rfl
  have hassoc : a ++ (b ++ x ++ b') ++ r = a ++ (b ++ (x ++ (b' ++ r))) := by
    simp
  rw [hassoc, holdsWord_append_blanks hw hb hbne ha,
    holdsWord_append_blanks hw hb' hb'ne hplain]
  rintro (h | h | h)
  · exact haw h
  · exact not_holdsWord_of_spells ho hne hx h
  · exact hr h

omit hw in
/-- A connective between balanced parts keeps them balanced. -/
theorem IsConnective.balanced_append {other a c r : Text} (ho : IsKeyword other)
    (hc : IsConnective other c) (ha : Scan.Balanced a) (hr : Scan.Balanced r) :
    Scan.Balanced (a ++ c ++ r) := by
  have hplain := hc.plain ho
  obtain ⟨d, c, rfl⟩ := List.exists_cons_of_ne_nil hc.ne_nil
  rw [List.forall_mem_cons] at hplain
  rw [List.append_assoc, List.cons_append]
  exact ha.append hplain.1 (hr.plain_append hplain.2)

/-- Operands that another connective joins are an operand again. -/
theorem Joined.operand {other : Text} {us : List Text} {t : Text}
    (ho : IsKeyword other) (hne : ¬ Spells word other) (h : Joined other us t)
    (hus : ∀ u ∈ us, Operand word u) :
    Operand word t := by
  induction h with
  | single t => exact hus t List.mem_cons_self
  | @cons t c r us hc hr ih =>
      rw [List.forall_mem_cons] at hus
      have ht := hus.1
      have hrest := ih hus.2
      refine ⟨?_, ht.trimmed.append ht.ne_nil hrest.trimmed hrest.ne_nil, ?_,
        ?_⟩
      · intro hn
        simp only [List.append_assoc] at hn
        exact ht.ne_nil (List.append_eq_nil_iff.1 hn).1
      · exact hc.balanced_append ho ht.balanced hrest.balanced
      · exact hc.not_holdsWord_append hw ho hne ht.balanced.closed ht.free
          hrest.free

/-- Joined operands are cut apart into themselves. -/
theorem Joined.cutAtWord_eq {us : List Text} {t : Text} (h : Joined word us t)
    (hus : ∀ u ∈ us, Operand word u) : cutAtWord word .start t = us := by
  induction h with
  | single t =>
      exact cutAtWord_of_uncut ((hus t List.mem_cons_self).uncut hw bounded_nil)
  | cons hc hr ih =>
      have hflush := (hr.trimmed fun u hu =>
        ⟨(hus u (List.mem_cons_of_mem _ hu)).ne_nil,
          (hus u (List.mem_cons_of_mem _ hu)).trimmed⟩).head
      rw [List.forall_mem_cons] at hus
      rw [cutAtWord_append_connective hw hc hflush (hus.1.uncut hw hc.bounded)
        hus.1.balanced.closed, ih hus.2]

end

/-! ## Terms

Operands are trimmed and not empty, so the splitter's trimming changes none of
them. -/

theorem trimPieces_eq_self {us : List Text} (h : ∀ u ∈ us, u ≠ [] ∧ Trimmed u) :
    trimPieces us = us := by
  induction us with
  | nil => rfl
  | cons u us ih =>
      rw [List.forall_mem_cons] at h
      cases us with
      | nil => rw [trimPieces, h.1.2.trim_eq, if_neg h.1.1]
      | cons v us => rw [trimPieces, h.1.2.trim_eq, ih h.2]

/-- The terms of joined operands are the operands. -/
theorem splitLogical_joined {word : Text} {us : List Text} {t : Text}
    (hw : IsKeyword word) (hup : upper word = word) (h : Joined word us t)
    (hus : ∀ u ∈ us, Operand word u) :
    splitLogical word t = us := by
  have htrim :=
    trimPieces_eq_self fun u hu => ⟨(hus u hu).ne_nil, (hus u hu).trimmed⟩
  rw [splitLogical, hup, h.cutAtWord_eq hw hus, htrim]
  cases h <;> rfl

end RowSql.Filter
