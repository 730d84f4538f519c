import RowSql.Proofs.Filter.Operands

/-!
# Parentheses around a term

Unwrapping takes off every pair of parentheses that stands around a text, with
the blanks inside of it, and stops at the first text that is not of that form.
So a text that was wrapped any number of times unwraps to what it was wrapped
around.
-/

namespace RowSql.Filter

open Text

theorem inside?_eq_some_iff {t u : Text} :
    inside? t = some u ↔ t = parenthesise u := by
  cases t with
  | nil =>
      constructor
      · intro h
        cases h
      · intro h
        exact absurd h.symm (parenthesise_ne_nil u)
  | cons c s =>
      rw [inside?, parenthesise, List.cons_append]
      constructor
      · intro h
        split at h
        · next hc =>
            cases h
            obtain ⟨rfl, hlast⟩ := hc
            obtain ⟨s, rfl⟩ := List.getLast?_eq_some_iff.1 hlast
            rw [List.dropLast_concat]
        · cases h
      · intro h
        rw [List.cons.injEq] at h
        obtain ⟨rfl, rfl⟩ := h
        rw [if_pos ⟨rfl, List.getLast?_concat⟩, List.dropLast_concat]

/-- Unwrapping begins with trimming. -/
theorem unwrapParens_trim (t : Text) :
    unwrapParens (trim t) = unwrapParens t := by
  rw [unwrapParens, unwrapParens.eq_def t, (trimmed_trim t).trim_eq]

theorem unwrapParens_pad {b t b' : Text} (hb : Blanks b) (hb' : Blanks b') :
    unwrapParens (b ++ t ++ b') = unwrapParens t := by
  rw [← unwrapParens_trim, trim_blanks_append hb hb', unwrapParens_trim]

theorem unwrapParens_parenthesise (t : Text) :
    unwrapParens (parenthesise t) = unwrapParens t := by
  rw [unwrapParens]
  split
  · next u hu =>
      rw [(trimmed_parenthesise t).trim_eq, inside?_eq_some_iff] at hu
      rw [parenthesise, parenthesise, List.append_cancel_right_eq,
        List.cons.injEq] at hu
      rw [hu.2]
  · next hn =>
      rw [(trimmed_parenthesise t).trim_eq, inside?_eq_some_iff.2 rfl] at hn
      cases hn

/-- A text that no pair of parentheses stands around is only trimmed. -/
theorem unwrapParens_of_not_parenthesised {t : Text}
    (h : ∀ u, trim t ≠ parenthesise u) :
    unwrapParens t = trim t := by
  rw [unwrapParens]
  split
  · next u hu => exact absurd (inside?_eq_some_iff.1 hu) (h u)
  · rfl

theorem unwrapParens_of_head {t : Text} (ht : Trimmed t)
    (h : ∀ s, t ≠ .char '(' :: s) :
    unwrapParens t = t := by
  rw [unwrapParens_of_not_parenthesised, ht.trim_eq]
  intro u hu
  rw [ht.trim_eq, parenthesise, List.cons_append] at hu
  exact h _ hu

/-- What is left after unwrapping is trimmed. -/
theorem trimmed_unwrapParens (t : Text) : Trimmed (unwrapParens t) := by
  induction hn : t.length using Nat.strongRecOn generalizing t with
  | ind n ih =>
  subst hn
  rw [unwrapParens]
  split
  · next u hu =>
      exact ih u.length
        (Nat.lt_of_lt_of_le (length_of_inside? hu) (length_trim_le t)) u rfl
  · exact trimmed_trim t

/-! ## Openers and closers

What is taken off at the head is parentheses and blanks, and so is what is taken
off at the end, as many of the one as of the other. Where the text between
begins and ends with something else, that decides where unwrapping stops. -/

/-- Nothing but opening parentheses and blanks. -/
def Openers (t : Text) : Prop := ∀ c ∈ t, c = .char '(' ∨ isBlank c = true

/-- Nothing but closing parentheses and blanks. -/
def Closers (t : Text) : Prop := ∀ c ∈ t, c = .char ')' ∨ isBlank c = true

theorem openers_nil : Openers [] := by
  intro c hc
  cases hc

theorem closers_nil : Closers [] := by
  intro c hc
  cases hc

theorem openers_cons {c : CodePoint} {t : Text} :
    Openers (c :: t) ↔ (c = .char '(' ∨ isBlank c = true) ∧ Openers t :=
  List.forall_mem_cons

theorem closers_cons {c : CodePoint} {t : Text} :
    Closers (c :: t) ↔ (c = .char ')' ∨ isBlank c = true) ∧ Closers t :=
  List.forall_mem_cons

theorem openers_append {s t : Text} :
    Openers (s ++ t) ↔ Openers s ∧ Openers t :=
  List.forall_mem_append

theorem closers_append {s t : Text} :
    Closers (s ++ t) ↔ Closers s ∧ Closers t :=
  List.forall_mem_append

theorem openers_of_blanks {b : Text} (h : Blanks b) : Openers b :=
  fun c hc => .inr (h c hc)

theorem closers_of_blanks {b : Text} (h : Blanks b) : Closers b :=
  fun c hc => .inr (h c hc)

theorem Closers.blanks {z : Text} (hz : Closers z)
    (hzero : z.count (.char ')') = 0) : Blanks z :=
  fun d hd => (hz d hd).resolve_left fun hclose =>
    List.count_eq_zero.1 hzero (hclose ▸ hd)

/-- Closers end in blanks, before which the last parenthesis stands. -/
theorem Closers.exists_last {z : Text} (hz : Closers z)
    (hpos : 0 < z.count (.char ')')) :
    ∃ z' b, z = z' ++ .char ')' :: b ∧ Closers z' ∧ Blanks b ∧
      z.count (.char ')') = z'.count (.char ')') + 1 := by
  induction z with
  | nil => exact absurd hpos (by simp)
  | cons c z ih =>
      rw [closers_cons] at hz
      by_cases hrest : 0 < z.count (.char ')')
      · obtain ⟨z', b, rfl, hz', hb, hcount⟩ := ih hz.2 hrest
        refine ⟨c :: z', b, rfl, closers_cons.2 ⟨hz.1, hz'⟩, hb, ?_⟩
        rw [List.count_cons, List.count_cons, hcount]
        omega
      · have hzero : z.count (.char ')') = 0 := by omega
        have hc : c = .char ')' := by
          rcases hz.1 with hc | hc
          · exact hc
          · rw [List.count_cons_of_ne
              (by rintro rfl; exact absurd hc (by decide))] at hpos
            omega
        refine ⟨[], z,
          by rw [hc]; rfl, closers_nil, Closers.blanks hz.2 hzero, ?_⟩
        rw [hc, List.count_cons_self, hzero, List.count_nil]

section

variable {m : Text} (hm : Trimmed m) (hhead : ∀ u, m ≠ .char '(' :: u)
include hm hhead

/-- Around a text that begins with no parenthesis, as many opening as closing
ones are taken off. -/
theorem unwrapParens_matched {o z : Text} (ho : Openers o) (hz : Closers z)
    (hcount : o.count (.char '(') = z.count (.char ')')) :
    unwrapParens (o ++ (m ++ z)) = m := by
  induction o generalizing z with
  | nil =>
      have h := unwrapParens_pad (t := m) blanks_nil (hz.blanks hcount.symm)
      rw [List.nil_append] at h
      rw [List.nil_append, h, unwrapParens_of_head hm hhead]
  | cons c o ih =>
      rw [openers_cons] at ho
      rcases ho.1 with rfl | hc
      · rw [List.count_cons_self] at hcount
        obtain ⟨z', b, rfl, hz', hb, hz'count⟩ := hz.exists_last (by omega)
        have h :=
          unwrapParens_pad (t := parenthesise (o ++ (m ++ z'))) blanks_nil hb
        have heq : .char '(' :: o ++ (m ++ (z' ++ .char ')' :: b)) =
            [] ++ parenthesise (o ++ (m ++ z')) ++ b := by
          simp [parenthesise]
        rw [heq, h, unwrapParens_parenthesise]
        exact ih ho.2 hz' (by omega)
      · rw [List.count_cons_of_ne (by rintro rfl; exact absurd hc (by decide))]
          at hcount
        have h :=
          unwrapParens_pad (t := o ++ (m ++ z)) (blanks_cons.2 ⟨hc, blanks_nil⟩)
            blanks_nil
        rw [List.append_nil] at h
        exact h.trans (ih ho.2 hz hcount)

omit hm in
/-- Where a text that neither begins nor ends with a parenthesis stands within a
pair of them, the pair is of what stands around the text. -/
theorem exists_of_eq_parenthesise (hne : m ≠ [])
    (hlast : ∀ u, m ≠ u ++ [.char ')']) {o z u : Text}
    (h : o ++ (m ++ z) = parenthesise u) :
    (∃ o', o = .char '(' :: o') ∧ ∃ z', z = z' ++ [.char ')'] := by
  constructor
  · rw [parenthesise, List.cons_append] at h
    cases o with
    | nil =>
        obtain ⟨c, m, rfl⟩ := List.exists_cons_of_ne_nil hne
        rw [List.nil_append, List.cons_append, List.cons.injEq] at h
        exact absurd (by rw [h.1]) (hhead m)
    | cons c o =>
        rw [List.cons_append, List.cons.injEq] at h
        exact ⟨o, by rw [h.1]⟩
  · rw [← List.append_assoc, parenthesise] at h
    rcases List.eq_nil_or_concat z with rfl | ⟨z, c, rfl⟩
    · obtain ⟨m, c, rfl⟩ := (List.eq_nil_or_concat m).resolve_left hne
      rw [List.append_nil, List.concat_eq_append, ← List.append_assoc] at h
      rw [List.concat_eq_append, (List.append_inj' h rfl).2] at hlast
      exact absurd rfl (hlast m)
    · rw [List.concat_eq_append, ← List.append_assoc] at h
      exact ⟨z, by rw [List.concat_eq_append, (List.append_inj' h rfl).2]⟩

/-- Whatever is taken off, the text is left with openers before it and closers
behind it, and the openers begin with a parenthesis if there are any. -/
theorem exists_unwrapParens_eq (hne : m ≠ [])
    (hlast : ∀ u, m ≠ u ++ [.char ')']) {o z : Text} (ho : Openers o)
    (hz : Closers z) :
    ∃ o' z', unwrapParens (o ++ (m ++ z)) = o' ++ (m ++ z') ∧ Closers z' ∧
      (o' = [] ∨ ∃ u, o' = .char '(' :: u) := by
  induction hn : o.length + z.length using Nat.strongRecOn generalizing o z with
  | ind n ih =>
  subst hn
  -- a blank at either end is trimmed off
  by_cases hblank : ∃ c o', o = c :: o' ∧ isBlank c = true
  · obtain ⟨c, o, rfl, hc⟩ := hblank
    have h :=
      unwrapParens_pad (t := o ++ (m ++ z)) (blanks_cons.2 ⟨hc, blanks_nil⟩)
        blanks_nil
    rw [List.append_nil] at h
    obtain ⟨o', z', heq, hrest⟩ :=
      ih (o.length + z.length) (by rw [List.length_cons]; omega)
        (openers_cons.1 ho).2 hz rfl
    exact ⟨o', z', h.trans heq, hrest⟩
  by_cases hblank' : ∃ z' c, z = z' ++ [c] ∧ isBlank c = true
  · obtain ⟨z, c, rfl, hc⟩ := hblank'
    have h :=
      unwrapParens_pad (t := o ++ (m ++ z)) blanks_nil
        (blanks_cons.2 ⟨hc, blanks_nil⟩)
    rw [List.nil_append, List.append_assoc, List.append_assoc] at h
    obtain ⟨o', z', heq, hrest⟩ :=
      ih (o.length + z.length)
        (by rw [List.length_append, List.length_singleton]; omega) ho
        (closers_append.1 hz).1 rfl
    exact ⟨o', z', h.trans heq, hrest⟩
  have hleft : FlushLeft o :=
    fun c s h => Bool.eq_false_iff.2 fun hc => hblank ⟨c, s, h, hc⟩
  have hright : FlushRight z :=
    fun s c h => Bool.eq_false_iff.2 fun hc => hblank' ⟨s, c, h, hc⟩
  have htrimmed : Trimmed (o ++ (m ++ z)) :=
    ⟨hleft.append ((flushLeft_append hne).2 hm.head),
      (flushRight_append (List.append_ne_nil_of_left_ne_nil hne z)).2
        (hm.last.append hright)⟩
  by_cases hpair : ∃ u, o ++ (m ++ z) = parenthesise u
  · obtain ⟨u, hu⟩ := hpair
    obtain ⟨⟨o, rfl⟩, ⟨z, rfl⟩⟩ := exists_of_eq_parenthesise hhead hne hlast hu
    have heq :
        .char '(' :: o ++ (m ++ (z ++ [.char ')'])) =
          parenthesise (o ++ (m ++ z)) := by
      simp [parenthesise]
    rw [heq, unwrapParens_parenthesise]
    exact ih (o.length + z.length)
      (by rw [List.length_cons, List.length_append]; omega)
      (openers_cons.1 ho).2 (closers_append.1 hz).1 rfl
  · refine ⟨o, z, ?_, hz, ?_⟩
    · rw [unwrapParens_of_not_parenthesised, htrimmed.trim_eq]
      rw [htrimmed.trim_eq]
      exact fun u hu => hpair ⟨u, hu⟩
    · cases o with
      | nil => exact .inl rfl
      | cons c o =>
          rcases (openers_cons.1 ho).1 with rfl | hc
          · exact .inr ⟨o, rfl⟩
          · exact absurd ⟨c, o, rfl, hc⟩ hblank

end

/-! ## Wrapping

Parentheses around a term are taken off with all blanks, and inside of them
nothing counts as a word on its own. So wrapping an operand makes an operand, of
either connective. -/

/-- A text in any number of pairs of parentheses, with blanks inside of each. -/
inductive Wrapped (t : Text) : Text → Prop
  | bare : Wrapped t t
  | wrap {b u b' : Text} (hb : Blanks b) (hu : Wrapped t u) (hb' : Blanks b') :
      Wrapped t (parenthesise (b ++ u ++ b'))

theorem Wrapped.unwrapParens_eq {t u : Text} (h : Wrapped t u) :
    unwrapParens u = unwrapParens t := by
  induction h with
  | bare => rfl
  | wrap hb hu hb' ih =>
      rw [unwrapParens_parenthesise, unwrapParens_pad hb hb', ih]

theorem Wrapped.balanced {t u : Text} (h : Wrapped t u) (ht : Scan.Balanced t) :
    Scan.Balanced u := by
  induction h with
  | bare => exact ht
  | wrap hb hu hb' ih =>
      exact (ih.pad hb hb').parenthesise

/-- No word stands on its own inside of parentheses. -/
theorem not_holdsWord_parenthesise {word t : Text} (hw : IsKeyword word)
    (ht : Scan.Balanced t) :
    ¬ HoldsWord word (parenthesise t) := by
  rintro ⟨s, x, r, h, hx, hs, _, _⟩
  obtain ⟨d, x, rfl⟩ := List.exists_cons_of_ne_nil (hw.spelling_ne_nil hx)
  have hd : ∀ a : CodePoint, a = '(' ∨ a = ')' → d ≠ a := by
    rintro a (rfl | rfl) <;>
      exact hw.ne_of_mem hx List.mem_cons_self (by decide)
  rw [parenthesise, List.append_assoc] at h
  cases s with
  | nil =>
      rw [List.nil_append, List.cons_append, List.cons_append, List.cons.injEq]
        at h
      exact hd _ (.inl rfl) h.1.symm
  | cons c s =>
      rw [List.cons_append, List.cons_append, List.cons.injEq] at h
      obtain ⟨rfl, h⟩ := h
      rcases List.append_eq_append_iff.1 h with ⟨w, rfl, hw'⟩ | ⟨w, rfl, _⟩
      · cases w with
        | nil =>
            rw [List.nil_append, List.cons_append, List.cons.injEq] at hw'
            exact hd _ (.inr rfl) hw'.1.symm
        | cons e w =>
            rw [List.cons_append, List.cons.injEq] at hw'
            exact absurd hw'.2.symm (by simp)
      · have hpos := ht.depth_pos rfl
        rw [(Scan.atTop_iff.1 hs).2] at hpos
        exact absurd hpos (Int.lt_irrefl 0)

/-- A wrapped operand is an operand. -/
theorem Wrapped.operand {word t u : Text} (hw : IsKeyword word)
    (h : Wrapped t u) (ht : Operand word t) : Operand word u := by
  cases h with
  | bare => exact ht
  | @wrap b u b' hb hu hb' =>
      have hin : Scan.Balanced (b ++ u ++ b') :=
        (hu.balanced ht.balanced).pad hb hb'
      exact ⟨parenthesise_ne_nil _, trimmed_parenthesise _, hin.parenthesise,
        not_holdsWord_parenthesise hw hin⟩

end RowSql.Filter
