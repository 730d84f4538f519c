import RowSql.Proofs.Filter.Division

/-!
# Terms put together again

Nothing of an expression is lost when it is cut into terms but the connectives
at the cuts, the blanks at the ends of the pieces and a last piece of blanks.
Nothing is asked of the expression: its quotes may stay open, its parentheses
need not match, and a connective may stand at its edge or share its blanks with
another one. In such a text not every connective is cut at, so what is said of
the cuts is where they begin in the scan of the whole, and that no connective
begins there but within one that is removed.

The terms stand for the expression in one more way. What begins in a piece in
front of a connective begins in the trimmed piece alone, unless it would need
the blank behind the piece; but then the piece would end in a blank and the
word, and be cut there. So a term is not cut again, and terms that are joined
are cut apart at the new connectives only.
-/

namespace RowSql.Filter

open Text

/-- Pieces, each with a connective behind it, and a last piece. -/
def woven : List (Text × Text) → Text → Text
  | [], last => last
  | (p, c) :: cuts, last => p ++ c ++ woven cuts last

/-- The terms of pieces with connectives between them. -/
def termsOf (cuts : List (Text × Text)) (last : Text) : List Text :=
  if cuts ≠ [] ∧ trim last = [] then cuts.map (trim ·.1)
  else cuts.map (trim ·.1) ++ [trim last]

/-- A text that is read in a state is cut at connectives that begin at the top
of the scan, and no other connective begins there, unless it begins within one
of these. -/
structure IsCutAt (word : Text) (st : Scan) (t : Text)
    (cuts : List (Text × Text)) (last : Text) :
    Prop where
  woven_eq : woven cuts last = t
  connective : ∀ us p c vs, cuts = us ++ (p, c) :: vs →
    IsConnective word c ∧ (st.run (woven us p)).atTop = true
  complete : ∀ s k r, t = s ++ k ++ r → IsConnective word k →
    (st.run s).atTop = true →
    ∃ us p c vs, cuts = us ++ (p, c) :: vs ∧
      (woven us p).length ≤ s.length ∧ s.length < (woven us p ++ c).length

/-- Terms that are cut apart at what is put between them and nowhere else. -/
inductive Steady (word : Text) : List Text → Prop
  | single {t : Text} (ht : Trimmed t) (hcut : Uncut word .start [] t) :
      Steady word [t]
  | cons {t u : Text} {us : List Text} (ht : Trimmed t)
      (hcut : Uncut word .start [] t)
      (htop : (Scan.start.run t).atTop = true) (hend : ¬ EndsWithWord word t)
        (hu : u ≠ [])
      (h : Steady word (u :: us)) : Steady word (t :: u :: us)

variable {word : Text} {st : Scan} {a c k rest s t u : Text} {ps us : List Text}

/-! ## Where the cuts are

The cuts are where the scanner finds a connective at the top. That it finds
every one that does not begin in another is the induction along the division of
the text. -/

/-- No connective begins at the top within an uncut part. -/
theorem Uncut.length_le (hw : IsKeyword word) (hst : st.Sound)
    (h : Uncut word st rest a) {r : Text} (hk : IsConnective word k)
    (heq : a ++ rest = s ++ (k ++ r)) (htop : (st.run s).atTop = true) :
    a.length ≤ s.length := by
  induction a generalizing st s with
  | nil => exact Nat.zero_le _
  | cons d a ih =>
      cases s with
      | nil =>
          have hblank : isBlank d = true := by
            have hbounded := hk.bounded (t := r)
            rw [← List.nil_append (k ++ r), ← heq] at hbounded
            exact bounded_cons.1 hbounded
          have hstep : (st.step d).atTop = true := by
            rw [Scan.step_eq_settled hst (Scan.plain_of_isBlank hblank),
              Scan.atTop_settled]
            exact htop
          have hnone := h.1 hstep
          rw [heq] at hnone
          exact absurd hnone (afterConnective?_ne_none hw hk r)
      | cons e s =>
          simp only [List.cons_append, List.cons.injEq] at heq
          obtain ⟨rfl, heq⟩ := heq
          have hle := ih (hst.step d) h.2 heq htop
          simpa using hle

/-- Behind a cut the scan is at its start again. -/
theorem IsConnective.run_append (hw : IsKeyword word) (hc : IsConnective word c)
    (htop : (st.run a).atTop = true) (u : Text) :
    st.run (a ++ c ++ u) = Scan.start.run u := by
  rw [Scan.run_append, Scan.run_append,
    Scan.run_plain_of_atTop htop (hc.plain hw) hc.ne_nil]
  rfl

/-- The scanner's pieces are those between its cuts. -/
theorem Divides.exists_cuts (hw : IsKeyword word) (hst : st.Sound)
    (h : Divides word st t ps) :
    ∃ cuts last, ps = cuts.map Prod.fst ++ [last] ∧
      IsCutAt word st t cuts last := by
  induction h with
  | @whole st t h =>
      refine ⟨[], t, rfl, rfl, fun us p c vs heq => by simp at heq, ?_⟩
      intro s k r heq hk htop
      rw [List.append_assoc] at heq
      have hle := h.length_le hw hst hk (by rw [List.append_nil, heq]) htop
      have hpos := List.length_pos_iff.2 hk.ne_nil
      simp only [heq, List.length_append] at hle
      omega
  | @cut st a c rest ps ha htop hc hrest hps ih =>
      obtain ⟨cuts, last, rfl, hwoven, hconnective, hcomplete⟩ :=
        ih Scan.sound_start
      refine ⟨(a, c) :: cuts, last, rfl, by rw [woven, hwoven], ?_, ?_⟩
      · intro us p k vs heq
        cases us with
        | nil =>
            simp only [List.nil_append, List.cons.injEq, Prod.mk.injEq] at heq
            obtain ⟨⟨rfl, rfl⟩, rfl⟩ := heq
            exact ⟨hc, htop⟩
        | cons v us =>
            rw [List.cons_append, List.cons.injEq] at heq
            obtain ⟨rfl, heq⟩ := heq
            obtain ⟨hk, htop'⟩ := hconnective us p k vs heq
            refine ⟨hk, ?_⟩
            rwa [woven, hc.run_append hw htop]
      · intro s k r heq hk htop'
        have hle := ha.length_le (r := r) hw hst hk
          (by rw [← List.append_assoc, heq, List.append_assoc]) htop'
        by_cases hlt : s.length < (a ++ c).length
        · exact ⟨[], a, c, cuts, rfl, hle, hlt⟩
        · obtain ⟨s', rfl⟩ : ∃ s', s = a ++ c ++ s' := by
            rw [List.append_assoc s] at heq
            exact List.prefix_of_prefix_length_le ⟨rest, rfl⟩ ⟨k ++ r,
              heq.symm⟩ (by omega)
              |>.imp fun _ h => h.symm
          rw [hc.run_append hw htop] at htop'
          simp only [List.append_assoc, List.append_cancel_left_eq] at heq
          obtain ⟨us, p, c', vs, rfl, hlower, hupper⟩ :=
            hcomplete s' k r (by rw [heq, List.append_assoc]) hk htop'
          refine ⟨(a, c) :: us, p, c', vs, rfl, ?_, ?_⟩ <;>
            simp only [woven, List.length_append] at hlower hupper ⊢ <;> omega

/-! ## Terms on their own

A piece that is trimmed is read from the scanner's start, as in its place. What
could be read of it otherwise is a connective that needs the blank behind the
piece, and there the text would have been cut. -/

theorem Divides.ne_nil (h : Divides word st t ps) : ps ≠ [] := by
  cases h <;> exact List.cons_ne_nil _ _

theorem Uncut.of_append (hw : IsKeyword word)
    (h : Uncut word st (rest ++ u) s) :
    Uncut word st rest s := by
  induction s generalizing st with
  | nil => trivial
  | cons c s ih =>
      refine ⟨fun htop => ?_, ih h.2⟩
      have hnone := h.1 htop
      rw [← List.append_assoc] at hnone
      cases hr : afterConnective? word (c :: s ++ rest) with
      | none => rfl
      | some r =>
          obtain ⟨k, hk, heq, _⟩ := (afterConnective?_eq_some_iff hw).1 hr
          rw [heq, List.append_assoc] at hnone
          exact absurd hnone (afterConnective?_ne_none hw hk (r ++ u))

theorem Uncut.trim (hw : IsKeyword word) (h : Uncut word .start rest a) :
    Uncut word .start [] (trim a) := by
  obtain ⟨b, b', hb, _, ha⟩ := exists_eq_trim a
  have hstart : Scan.start.run b = .start := Scan.run_blanks hb 0
  rw [ha, uncut_append, hstart, uncut_append] at h
  exact h.2.1.of_append (u := b' ++ rest) hw

/-- Before a cut no piece ends in a blank and the word: it would be cut
there. -/
theorem Uncut.not_endsWithWord (hw : IsKeyword word)
    (h : Uncut word .start (c ++ rest) a) (hc : IsConnective word c)
    (htop : (Scan.start.run a).atTop = true) :
    ¬ EndsWithWord word (Text.trim a) := by
  rintro ⟨s, d, x, htrim, hd, hx⟩
  obtain ⟨b, b', hb, hb', ha⟩ := exists_eq_trim a
  have hsplit : a = b ++ s ++ (d :: x ++ b') := by
    rw [ha, htrim]
    simp only [List.append_assoc, List.cons_append]
  obtain ⟨e, r, her, he⟩ :
      ∃ e r, b' ++ (c ++ rest) = e :: r ∧ isBlank e = true := by
    cases hb'e : b' ++ (c ++ rest) with
    | nil =>
        exact absurd (List.append_eq_nil_iff.1
          (List.append_eq_nil_iff.1 hb'e).2).1 hc.ne_nil
    | cons e r =>
        refine ⟨e, r, rfl, ?_⟩
        cases b' with
        | nil => exact hc.bounded e r hb'e
        | cons f b' => exact hb'.bounded (List.cons_ne_nil f b') e r hb'e
  have hk : IsConnective word ([d] ++ x ++ [e]) :=
    ⟨[d], x, [e], rfl, blanks_cons.2 ⟨hd, blanks_nil⟩, List.cons_ne_nil d [],
      hx, blanks_cons.2 ⟨he, blanks_nil⟩, List.cons_ne_nil e []⟩
  have heq : a ++ (c ++ rest) = b ++ s ++ ([d] ++ x ++ [e] ++ r) := by
    rw [hsplit]
    simp only [List.append_assoc, List.cons_append, List.nil_append, her]
  have hplain : ∀ f ∈ d :: x ++ b', Scan.Plain f := by
    intro f hf
    rw [List.mem_append, List.mem_cons] at hf
    rcases hf with (rfl | hf) | hf
    · exact Scan.plain_of_isBlank hd
    · exact Scan.plain_of_spells hw hx hf
    · exact Scan.plain_of_isBlank (hb' f hf)
  have hbefore : (Scan.start.run (b ++ s)).atTop = true := by
    rwa [hsplit, Scan.run_append,
      Scan.run_eq_settled (Scan.sound_start.run _) hplain
      (by simp), Scan.atTop_settled] at htop
  have hle := h.length_le hw Scan.sound_start hk heq hbefore
  simp only [hsplit, List.length_append, List.length_cons] at hle
  omega

theorem Steady.forall_mem (h : Steady word us) :
    ∀ u ∈ us, Trimmed u ∧ Uncut word .start [] u := by
  induction h with
  | single ht hu => exact List.forall_mem_singleton.2 ⟨ht, hu⟩
  | cons ht hu _ _ _ _ ih => exact List.forall_mem_cons.2 ⟨⟨ht, hu⟩, ih⟩

theorem Steady.cutAtWord_join (hw : IsKeyword word) (h : Steady word us)
    (hc : IsConnective word c) :
    cutAtWord word .start (join c us) = us := by
  induction h with
  | single _ hcut => exact cutAtWord_of_uncut hcut
  | @cons t u us ht hcut htop hend hu h ih =>
      have hrest : FlushLeft (join c (u :: us)) := by
        obtain ⟨r, hr⟩ := exists_join_cons c u us
        rw [hr, flushLeft_append hu]
        exact (h.forall_mem u List.mem_cons_self).1.head
      have ht' : t ++ [] = t := List.append_nil t
      have hcut' : Uncut word .start (c ++ join c (u :: us)) t :=
        Uncut.append_rest (t := []) hw hcut (by rw [ht']; exact ht.last)
          (by rwa [ht']) hc.bounded
      rw [join, cutAtWord_append_connective hw hc hrest hcut' htop, ih]

theorem Steady.trimPieces_eq (h : Steady word us) :
    us = [[]] ∨ trimPieces us = us := by
  induction h with
  | @single t ht _ =>
      by_cases hne : t = []
      · exact .inl (congrArg ([·]) hne)
      · right
        rw [trimPieces, ht.trim_eq, if_neg hne]
  | @cons t u us ht _ _ _ hu _ ih =>
      right
      have htail := ih.resolve_left fun hnil => hu (List.cons.inj hnil).1
      rw [trimPieces, ht.trim_eq, htail]

/-- Behind a connective the first term is not empty. -/
theorem Divides.ne_nil_of_trimPieces (h : Divides word st t ps)
    (hflush : FlushLeft t) (heq : trimPieces ps = u :: us) : u ≠ [] := by
  cases h with
  | whole h =>
      rw [trimPieces] at heq
      split at heq
      · cases heq
      · next hne => exact (List.cons.inj heq).1 ▸ hne
  | @cut st a c rest ps ha htop hc hrest hps =>
      rw [trimPieces_cons hps.ne_nil, List.cons.injEq] at heq
      rw [← heq.1]
      intro hnil
      rw [List.append_assoc] at hflush
      obtain ⟨d, r, hdr⟩ : ∃ d r, a ++ (c ++ rest) = d :: r := by
        refine List.exists_cons_of_ne_nil fun hn => hc.ne_nil ?_
        exact (List.append_eq_nil_iff.1 (List.append_eq_nil_iff.1 hn).2).1
      have hd := hflush d r hdr
      cases a with
      | nil => rw [hc.bounded d r hdr] at hd; cases hd
      | cons e a =>
          rw [(trim_eq_nil_iff.1 hnil).bounded (List.cons_ne_nil e a) d r hdr]
            at hd
          cases hd

theorem Divides.steady (hw : IsKeyword word) (h : Divides word .start t ps) :
    trimPieces ps = [] ∨ Steady word (trimPieces ps) := by
  generalize hst : Scan.start = st at h
  induction h with
  | @whole st t h =>
      subst hst
      rw [trimPieces]
      split
      · exact .inl rfl
      · exact .inr (.single (trimmed_trim t) (h.trim hw))
  | @cut st a c rest ps ha htop hc hrest hps ih =>
      subst hst
      have hcut := ha.trim hw
      rw [trimPieces_cons hps.ne_nil]
      right
      cases hterms : trimPieces ps with
      | nil => exact .single (trimmed_trim a) hcut
      | cons u us =>
          have hsteady := (ih rfl).resolve_left (by simp [hterms])
          rw [hterms] at hsteady
          refine .cons (trimmed_trim a) hcut ?_ (ha.not_endsWithWord hw hc htop)
            (hps.ne_nil_of_trimPieces hrest hterms) hsteady
          -- the blanks that are trimmed off leave the scan at the top
          obtain ⟨b, b', hb, hb', heq⟩ := exists_eq_trim a
          have hstart : Scan.start.run b = .start := Scan.run_blanks hb 0
          rwa [heq, Scan.run_append, hstart, Scan.run_append,
            Scan.atTop_run_blanks (Scan.sound_start.run _) hb'] at htop

/-! ## Terms of an expression

The splitter is given an operator in any letter case, and compares upper-case
forms. Behind that the terms of an expression are steady, and joined by the
operator they are its terms again. -/

theorem IsConnective.recased {other : Text} (h : Spells word other) :
    IsConnective other c ↔ IsConnective word c := by
  simp only [IsConnective, Spells, h.symm]

theorem IsCutAt.recased {other last : Text} {cuts : List (Text × Text)}
    (h : Spells word other) (hcut : IsCutAt other st t cuts last) :
    IsCutAt word st t cuts last where
  woven_eq := hcut.woven_eq
  connective us p c vs heq :=
    (hcut.connective us p c vs heq).imp_left (IsConnective.recased h).1
  complete s k r heq hk :=
    hcut.complete s k r heq ((IsConnective.recased h).2 hk)

section

variable {operator : Text} (hw : IsKeyword operator)
include hw

theorem isKeyword_upper : IsKeyword (upper operator) :=
  have hspells := hw.spells_upper (spells_self operator)
  ⟨hw.spelling_ne_nil hspells, fun _ hc => hw.letter_of_mem hspells hc⟩

theorem steady_splitLogical (t : Text) :
    Steady (upper operator) (splitLogical operator t) := by
  have hdivides := divides_cutAtWord (isKeyword_upper hw) Scan.sound_start t
  rw [splitLogical]
  rcases hdivides.steady (isKeyword_upper hw) with hnil | hsteady
  · rw [hnil]
    exact .single (by decide) trivial
  · cases hterms : trimPieces (cutAtWord (upper operator) .start t) with
    | nil => exact .single (by decide) trivial
    | cons u us => rwa [hterms] at hsteady

/-- Steady terms are the terms of the text in which a connective joins them. -/
theorem Steady.splitLogical_join (h : Steady (upper operator) us)
    (hc : IsConnective (upper operator) c) :
    splitLogical operator (join c us) = us := by
  rw [splitLogical, h.cutAtWord_join (isKeyword_upper hw) hc]
  rcases h.trimPieces_eq with rfl | heq
  · rfl
  · rw [heq]
    cases h <;> rfl

theorem exists_isCutAt (t : Text) :
    ∃ cuts last, IsCutAt operator .start t cuts last ∧
      splitLogical operator t = termsOf cuts last := by
  have hdivides := divides_cutAtWord (isKeyword_upper hw) Scan.sound_start t
  obtain ⟨cuts, last, hps, hcut⟩ :=
    hdivides.exists_cuts (isKeyword_upper hw) Scan.sound_start
  refine ⟨cuts, last, hcut.recased (hw.spells_upper (spells_self operator)), ?_⟩
  rw [splitLogical, hps, trimPieces_append, List.map_map, termsOf]
  by_cases hlast : trim last = []
  · cases cuts <;> simp [hlast]
  · cases cuts <;> simp [hlast]

end

/-- An expression is cut at connectives outside of quotes and at depth zero,
wherever one begins that does not begin within another; its pieces with what was
removed between them are the expression, and its terms are the pieces trimmed. A
term is not cut again, and the terms with the operator between them are cut into
these terms. -/
theorem splitLogical_reassembled {operator : Text} (hw : IsKeyword operator)
    (t : Text) :
    (∃ cuts last, IsCutAt operator .start t cuts last ∧
      splitLogical operator t = termsOf cuts last) ∧
    (∀ u ∈ splitLogical operator t, splitLogical operator u = [u]) ∧
    splitLogical operator
        (join (" ".toText ++ operator ++ " ".toText)
          (splitLogical operator t)) =
      splitLogical operator t := by
  have hsteady := steady_splitLogical hw t
  have hc :
      IsConnective (upper operator) (" ".toText ++ operator ++ " ".toText) :=
      ⟨_, _, _, rfl, blanks_space, List.cons_ne_nil _ _,
        (hw.spells_upper (spells_self operator)).symm, blanks_space,
        List.cons_ne_nil _ _⟩
  refine ⟨exists_isCutAt hw t, fun u hu => ?_, hsteady.splitLogical_join hw hc⟩
  obtain ⟨htrimmed, hcut⟩ := hsteady.forall_mem u hu
  exact (Steady.single htrimmed hcut).splitLogical_join hw hc

/-- A connective at the edge that shares its blank with the next, a quote behind
a backslash, and a parenthesis too many. -/
theorem splitLogical_reassembled_shared :
    splitLogical "AND".toText " AND AND (b) and c\\' aNd d) AND e".toText =
        ["".toText, "AND (b)".toText, "c\\'".toText, "d) AND e".toText] ∧
      (∃ cuts last,
        IsCutAt "AND".toText .start " AND AND (b) and c\\' aNd d) AND e".toText
            cuts last ∧
        termsOf cuts last = ["".toText, "AND (b)".toText, "c\\'".toText,
          "d) AND e".toText]) ∧
      splitLogical "AND".toText "AND (b)".toText = ["AND (b)".toText] := by
  have hterms :
      splitLogical "AND".toText " AND AND (b) and c\\' aNd d) AND e".toText =
        ["".toText, "AND (b)".toText, "c\\'".toText, "d) AND e".toText] := by
        decide +kernel
  have hand : IsKeyword "AND".toText := by decide
  obtain ⟨⟨cuts, last, hcut, heq⟩, hagain, _⟩ :=
    splitLogical_reassembled hand " AND AND (b) and c\\' aNd d) AND e".toText
  rw [hterms] at heq hagain
  exact ⟨hterms, ⟨cuts, last, hcut, heq.symm⟩, hagain _ (by simp)⟩

end RowSql.Filter
