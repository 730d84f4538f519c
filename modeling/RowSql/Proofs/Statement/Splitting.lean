import RowSql.Proofs.Statement.Search

/-!
# What is split into clauses

A text is split into clauses exactly when two things hold. It is *written* as
these clauses: each begins outside of quotes and parentheses, with a blank
before its words and one behind them, and has a body that is not blank. And the
clauses are *placed*: looked for in the fixed order, each is the first one of
its kind that is seen behind the one found before, and those that are not found
are seen nowhere. Whether a clause is seen in a body depends on the body alone,
since no clause begins in it and ends behind it.

A clause behind a later one is not looked for any more. It stays in the body it
stands in.
-/

namespace RowSql.Clause

open Text

variable {clause : Clause} {clauses : List Clause} {free : Bool}
  {b g r s t u x : Text} {bs : List (Clause × Text)}

/-! ## Whether a word may begin

A word may begin at the start of a text or behind a blank. So what counts of a
text before it is its last character. -/

theorem freeAfter_append (free : Bool) (s t : Text) :
    freeAfter free (s ++ t) = freeAfter (freeAfter free s) t :=
  List.foldl_append

theorem freeAfter_of_ne_nil (h : t ≠ []) (free free' : Bool) :
    freeAfter free t = freeAfter free' t := by
  cases t with
  | nil => exact absurd rfl h
  | cons c t => rfl

theorem freeAfter_of_blanks (hb : Blanks b) : freeAfter true b = true := by
  induction b with
  | nil => rfl
  | cons c b ih =>
      rw [blanks_cons] at hb
      rw [freeAfter, List.foldl_cons, hb.1]
      exact ih hb.2

theorem freeAfter_of_flushRight (h : FlushRight t) (hne : t ≠ [])
    (free : Bool) :
    freeAfter free t = false := by
  rcases List.eq_nil_or_concat t with rfl | ⟨s, c, rfl⟩
  · exact absurd rfl hne
  · rw [List.concat_eq_append] at h ⊢
    rw [freeAfter_append]
    exact flushRight_concat.1 h

/-! ## Bodies taken for themselves

A clause that begins in a body has ended in front of the blank behind it. So
nothing has to be known of what follows a body, and trimming it hides nothing
and shows nothing. -/

/-- No clause of a kind is seen in a text that is taken for itself. -/
def Clear (clause : Clause) (b : Text) : Prop :=
  clause.Unseen .start true [] b

instance (clause : Clause) (b : Text) : Decidable (clause.Clear b) :=
  inferInstanceAs (Decidable (clause.Unseen .start true [] b))

theorem clear_nil (clause : Clause) : clause.Clear [] := trivial

/-- What may stand behind a text of which only the trimmed part counts. -/
structure Behind (g r : Text) : Prop where
  free : r = [] ∨ freeAfter true g = true
  noBy : afterWord? "BY".toText (trimLeft r) = none

theorem behind_nil (g : Text) : Behind g [] := ⟨.inl rfl, rfl⟩

theorem Spelled.noBy (hx : clause.Spelled x) (r : Text) :
    afterWord? "BY".toText (x ++ r) = none := by
  have hfirst : ∀ w ∈ clause.firstWord.head?, sameLetter 'B' w = false := by
    cases clause <;> decide
  obtain ⟨v, y, hv, _, rfl⟩ := hx
  cases hword : clause.firstWord with
  | nil => exact absurd hword clause.isKeyword_firstWord.ne_nil
  | cons w ws =>
      rw [hword] at hv hfirst
      cases v with
      | nil => exact absurd hv.length_eq (by simp)
      | cons c v =>
          have hc : sameLetter 'B' c = false := by
            have hw := hfirst w rfl
            have hsame := (spells_cons.1 hv).1
            rw [sameLetter, beq_iff_eq] at hsame
            rwa [sameLetter, ← hsame]
          show (if sameLetter 'B' c then _ else none) = none
          rw [hc]
          rfl

theorem Spelled.behind (hx : clause.Spelled x) (hg : freeAfter true g = true)
    (r : Text) :
    Behind g (x ++ r) :=
  ⟨.inr hg, by rw [(hx.flushLeft r).trimLeft_eq]; exact hx.noBy r⟩

/-- Blanks around a body count for nothing, and neither does what stands behind
it. -/
theorem unseen_iff_clear (hfree : free = true ∨ Bounded g) (hr : Behind g r) :
    clause.Unseen .start free r g ↔ clause.Clear (trim g) := by
  obtain ⟨l, l', hl, hl', hg⟩ := exists_eq_trim g
  have hw := trimmed_trim g
  generalize trim g = w at hg hw
  have hrun : Scan.start.run l = .start := Scan.run_blanks hl 0
  have hparts : clause.Unseen .start free r g ↔
      clause.Unseen .start (freeAfter free l) (l' ++ r) w := by
    rw [hg, unseen_append, unseen_append, hrun]
    exact ⟨fun h => h.2.1,
      fun h => ⟨unseen_of_blanks hl, h, unseen_of_blanks hl'⟩⟩
  rw [hparts, Clear]
  by_cases hne : w = []
  · rw [hne]
    exact ⟨fun _ => trivial, fun _ => trivial⟩
  have hhead : freeAfter free l = true := by
    cases l with
    | nil =>
        rcases hfree with rfl | hbounded
        · rfl
        · -- a body that begins at once does not begin with a blank
          rw [hg, List.nil_append] at hbounded
          exact absurd (hbounded.of_append.eq_nil hw.head) hne
    | cons c l =>
        exact (freeAfter_of_ne_nil (List.cons_ne_nil c l) _ _).trans
          (freeAfter_of_blanks hl)
  have hclosing : Closing (l' ++ r) := by
    refine ⟨?_, by rw [trimLeft_append_blanks hl']; exact hr.noBy⟩
    by_cases hnil : l' = []
    · rcases hr.free with rfl | hlast
      · rw [hnil]
        exact bounded_nil
      · -- a body that ends at once does not end in a blank
        rw [hg, hnil, List.append_nil, freeAfter_append,
          freeAfter_of_flushRight hw.last hne] at hlast
        cases hlast
    · exact hl'.bounded hnil
  rw [hhead]
  exact ⟨fun h => h.of_bounded hclosing.bounded,
    fun h => h.of_closing hw.last hclosing⟩

theorem Unseen.clear (hfree : free = true ∨ Bounded g) (hr : Behind g r)
    (h : clause.Unseen .start free r g) : clause.Clear (trim g) :=
  (unseen_iff_clear hfree hr).1 h

/-- Where less may begin, less is seen. -/
theorem Clear.unseen (h : clause.Clear (trim g)) (hr : Behind g r)
    (free : Bool) :
    clause.Unseen .start free r g :=
  ((unseen_iff_clear (.inl rfl) hr).2 h).mono_free fun _ => rfl

/-! ## Clauses one after the other

How a text is written says where its clauses begin, and how they are placed says
which of them are found. A text may be written in several ways, and only one of
these is placed. -/

/-- A text that is some text, and then clauses with their bodies, each of which
begins outside of quotes and parentheses. -/
inductive Written : Text → List (Clause × Text) → Text → Prop
  | done (g : Text) : Written g [] g
  | clause {clause : Clause} {bs : List (Clause × Text)} {g x b r : Text}
      (htop : (Scan.start.run g).atTop = true) (hfree : freeAfter true g = true)
      (hx : clause.Spelled x) (hr : Bounded r) (hb : trim b ≠ [])
        (hrest : Written b bs r) :
      Written g ((clause, trim b) :: bs) (g ++ (x ++ r))

/-- The clauses that are looked for behind a body are the ones that are
there. -/
inductive Placed : List Clause → Text → List (Clause × Text) → Prop
  | done (b : Text) : Placed [] b []
  | absent {clause : Clause} {clauses : List Clause} {b : Text}
      {bs : List (Clause × Text)}
      (hb : clause.Clear b) (hbs : ∀ p ∈ bs, clause ≠ p.1 ∧ clause.Clear p.2)
      (hrest : Placed clauses b bs) : Placed (clause :: clauses) b bs
  | found {clause : Clause} {clauses : List Clause} {b b' : Text}
      {bs : List (Clause × Text)}
      (hb : clause.Clear b) (hrest : Placed clauses b' bs) :
      Placed (clause :: clauses) b ((clause, b') :: bs)

/-- The clause that is looked for last comes last. -/
theorem Placed.exists_concat (front : List Clause)
    (h : Placed (front ++ [clause]) b bs) (hfront : clause ∉ front)
    {body : Text} (hmem : (clause, body) ∈ bs) :
    ∃ bs', bs = bs' ++ [(clause, body)] := by
  induction front generalizing b bs with
  | nil =>
      cases h with
      | absent _ hbs _ => exact absurd rfl (hbs _ hmem).1
      | found _ hrest =>
          cases hrest
          rw [List.mem_singleton.1 hmem]
          exact ⟨[], rfl⟩
  | cons c front ih =>
      rw [List.mem_cons, not_or] at hfront
      cases h with
      | absent _ _ hrest => exact ih hrest hfront.2 hmem
      | found _ hrest =>
          rcases List.mem_cons.1 hmem with heq | hmem
          · exact absurd (congrArg Prod.fst heq) hfront.1
          · obtain ⟨bs', rfl⟩ := ih hrest hfront.2 hmem
            exact ⟨_ :: bs', rfl⟩

/-- Clauses that stand in the order in which they are looked for are placed,
when none is seen in a body. -/
theorem placed_of_sublist (h : (bs.map Prod.fst).Sublist clauses)
    (hnodup : clauses.Nodup) (hb : ∀ c ∈ clauses, c.Clear b)
    (hbs : ∀ c ∈ clauses, ∀ p ∈ bs, c.Clear p.2) :
    Placed clauses b bs := by
  induction clauses generalizing b bs with
  | nil =>
      rw [List.map_eq_nil_iff.1 (List.sublist_nil.1 h)]
      exact .done b
  | cons c clauses ih =>
      rw [List.nodup_cons] at hnodup
      rw [List.forall_mem_cons] at hb hbs
      cases bs with
      | nil =>
          exact .absent hb.1 nofun (ih (List.nil_sublist _) hnodup.2 hb.2 hbs.2)
      | cons p bs =>
          -- the clause that is looked for first is there as the first one or
          -- not at all
          rcases List.sublist_cons_iff.1 h with h' | ⟨_, heq, h'⟩
          · refine .absent hb.1 (fun q hq => ⟨?_, hbs.1 q hq⟩)
              (ih h' hnodup.2 hb.2 hbs.2)
            rintro rfl
            exact hnodup.1 (h'.subset (List.mem_map_of_mem hq))
          · obtain ⟨rfl, rfl⟩ := List.cons.inj heq
            refine .found hb.1
              (ih h' hnodup.2 (fun c hc => ?_) fun c hc q hq => ?_)
            · exact hbs.2 c hc p List.mem_cons_self
            · exact hbs.2 c hc q (List.mem_cons_of_mem _ hq)

namespace Written

theorem exists_append (h : Written g bs u) : ∃ r, u = g ++ r := by
  cases h with
  | done => exact ⟨[], (List.append_nil g).symm⟩
  | clause => exact ⟨_, rfl⟩

theorem trimmed (h : Written g bs u) : ∀ p ∈ bs, p.2 ≠ [] ∧ Trimmed p.2 := by
  induction h with
  | done => exact fun p hp => absurd hp List.not_mem_nil
  | clause _ _ _ _ hb _ ih =>
      exact List.forall_mem_cons.2 ⟨⟨hb, trimmed_trim _⟩, ih⟩

/-- Blanks before the first clause may be left out. -/
theorem trimLeft (h : Written g bs u) (hg : Blanks g) :
    Written [] bs (trimLeft u) := by
  cases h with
  | done =>
      rw [trimLeft_eq_nil_iff.2 hg]
      exact .done []
  | @clause _ _ _ x b r _ _ hx hr hb hrest =>
      rw [trimLeft_append_blanks hg, (hx.flushLeft r).trimLeft_eq]
      exact .clause (g := []) rfl rfl hx hr hb hrest

/-- A clause that is seen in no body is not seen at all. -/
theorem unseen (h : Written g bs u) (hg : clause.Clear (trim g))
    (hbs : ∀ p ∈ bs, clause ≠ p.1 ∧ clause.Clear p.2) (free : Bool) :
    clause.Unseen .start free [] u := by
  induction h generalizing free with
  | done g => exact hg.unseen (behind_nil g) free
  | @clause c bs g x b r htop hfree hx hr hb hrest ih =>
      rw [List.forall_mem_cons] at hbs
      rw [unseen_append, unseen_append, hx.run_eq htop, List.append_nil,
        List.append_nil]
      exact ⟨hg.unseen (hx.behind hfree r) free, unseen_spelled hbs.1.1 hx hr,
        ih hbs.1.2 hbs.2 _⟩

/-- A clause that is not seen at all is seen in no body, and is none of those
there. -/
theorem clear (h : Written g bs u) (hfree : free = true ∨ g ≠ [] ∧ Bounded g)
    (hu : clause.Unseen .start free [] u) :
    clause.Clear (trim g) ∧ ∀ p ∈ bs, clause ≠ p.1 ∧ clause.Clear p.2 := by
  induction h generalizing free with
  | done g =>
      exact ⟨hu.clear (hfree.imp_right And.right) (behind_nil g),
        fun p hp => absurd hp List.not_mem_nil⟩
  | @clause c bs g x b r htop hfree' hx hr hb hrest ih =>
      rw [unseen_append, unseen_append, hx.run_eq htop, List.append_nil,
        List.append_nil] at hu
      obtain ⟨hgap, hwords, hbody⟩ := hu
      have hne : b ≠ [] := fun hn => hb (by rw [hn]; rfl)
      obtain ⟨r', rfl⟩ := hrest.exists_append
      obtain ⟨hclear, hbs⟩ := ih (.inr ⟨hne, hr.of_append⟩) hbody
      refine ⟨hgap.clear (hfree.imp_right And.right) (hx.behind hfree' _),
        List.forall_mem_cons.2 ⟨⟨?_, hclear⟩, hbs⟩⟩
      rintro rfl
      -- the clause would be seen at its own words
      have hword : freeAfter free g = true := by
        rcases hfree with rfl | ⟨hnil, _⟩
        · exact hfree'
        · rwa [freeAfter_of_ne_nil hnil free true]
      obtain ⟨d, y, rfl⟩ := List.exists_cons_of_ne_nil hx.ne_nil
      have hnone := hwords.1 htop hword
      rw [hx.after? hr] at hnone
      cases hnone

theorem not_blanks {p : Clause × Text} (h : Written g (p :: bs) u) :
    ¬ Blanks u := by
  cases h with
  | @clause _ _ _ x b r _ _ hx _ _ _ =>
      intro hu
      obtain ⟨c, y, rfl⟩ := List.exists_cons_of_ne_nil hx.ne_nil
      have hc := hu c (List.mem_append_right g List.mem_cons_self)
      rw [flushLeft_cons.1 (hx.flushLeft [])] at hc
      cases hc

/-- Before the words of a clause the text is written as the clauses that stand
there, and behind them with the clause's own body first. -/
theorem exists_cut {front back : List (Clause × Text)} {c : Clause}
    (h : Written g (front ++ (c, b) :: back) u) :
    ∃ s x b' r, u = s ++ (x ++ r) ∧ Written g front s ∧
      (Scan.start.run s).atTop = true ∧
      freeAfter true s = true ∧ c.Spelled x ∧ Bounded r ∧ trim b' = b ∧
      Written b' back r := by
  induction front generalizing g u with
  | nil =>
      cases h with
      | clause htop hfree hx hr _ hrest =>
          exact ⟨g, _, _, _, rfl, .done g, htop, hfree, hx, hr, rfl, hrest⟩
  | cons p front ih =>
      cases h with
      | @clause _ _ _ y b₀ _ htop _ hy hr hb₀ hrest =>
          -- behind its words everything is as at the start, so the rest is cut
          -- by itself
          obtain ⟨s, x, b', r, rfl, hs, hstop, hsfree, hx⟩ := ih hrest
          obtain ⟨s', rfl⟩ := hs.exists_append
          have hne : b₀ ++ s' ≠ [] :=
            List.append_ne_nil_of_left_ne_nil
              (fun hn => hb₀ (by rw [hn]; rfl)) s'
          refine ⟨g ++ (y ++ (b₀ ++ s')), x, b', r,
            by
            simp only [List.append_assoc],
              .clause htop ‹_› hy hr.of_append hb₀ hs, ?_, ?_, hx⟩
          · rwa [Scan.run_append, Scan.run_append, hy.run_eq htop]
          · rwa [freeAfter_append, freeAfter_append,
              freeAfter_of_ne_nil hne _ true]

/-- A text that ends in no blank ends with the last body. -/
theorem last {c : Clause} (h : Written g (bs ++ [(c, b)]) u) (hb : b ≠ [])
    (hu : FlushRight u) :
    ∃ s x l, u = s ++ (x ++ (l ++ b)) ∧ (Scan.start.run s).atTop = true ∧
      freeAfter true s = true ∧ c.Spelled x ∧ Blanks l ∧ l ≠ [] := by
  obtain ⟨s, x, b', r, rfl, -, htop, hfree, hx, hr, rfl, hrest⟩ := h.exists_cut
  cases hrest
  obtain ⟨l, l', hl, hl', hsplit⟩ := exists_eq_trim b'
  have hnil : l' = [] := by
    by_contra hne
    rw [hsplit] at hu
    exact FlushRight.not_blanks (FlushRight.of_append (FlushRight.of_append
      (FlushRight.of_append (FlushRight.of_append hu)))) hne hl'
  rw [hnil, List.append_nil] at hsplit
  refine ⟨s, x, l, by rw [← hsplit], htop, hfree, hx, hl, ?_⟩
  rintro rfl
  -- a body that begins at once does not stand apart from the words
  rw [hsplit, List.nil_append] at hr
  exact hb (hr.eq_nil (trimmed_trim b').head)

end Written

/-! ## Bodies that are left

Of clauses that are written this asks only that each begins outside of quotes
and parentheses, which is to say that the bodies before it close. -/

/-- Every body that another clause follows is left outside of quotes and
parentheses. -/
def Chained : Text → List (Clause × Text) → Prop
  | _, [] => True
  | b, p :: bs => (Scan.start.run b).atTop = true ∧ Chained p.2 bs

theorem atTop_trim (g : Text) :
    (Scan.start.run (trim g)).atTop = (Scan.start.run g).atTop := by
  obtain ⟨l, l', hl, hl', hg⟩ := exists_eq_trim g
  have hrun : Scan.start.run l = .start := Scan.run_blanks hl 0
  conv_rhs => rw [hg, Scan.run_append, Scan.run_append, hrun]
  rw [Scan.atTop_run_blanks (Scan.sound_start.run _) hl']

theorem Written.chained (h : Written g bs u) : Chained (trim g) bs := by
  induction h with
  | done => trivial
  | clause htop _ _ _ _ _ ih => exact ⟨by rwa [atTop_trim], ih⟩

theorem Chained.written (h : Chained (trim g) bs)
    (hbs : ∀ p ∈ bs, p.2 ≠ [] ∧ Trimmed p.2)
    (hfree : bs ≠ [] → freeAfter true g = true) :
    Written g bs (g ++ text bs) := by
  induction bs generalizing g with
  | nil =>
      rw [text, List.append_nil]
      exact .done g
  | cons p bs ih =>
      obtain ⟨c, b⟩ := p
      rw [List.forall_mem_cons] at hbs
      obtain ⟨⟨hne, htrim⟩, hbs⟩ := hbs
      have hbody := trim_padded htrim bs
      have hlast : bs ≠ [] → freeAfter true (padded b bs) = true := by
        intro hn
        obtain ⟨q, qs, rfl⟩ := List.exists_cons_of_ne_nil hn
        exact freeAfter_padded b q qs []
      have hrest : Written (padded b bs) bs (padded b bs ++ text bs) :=
        ih (by rw [hbody]; exact h.2) hbs hlast
      have hwritten := Written.clause (by rw [← atTop_trim]; exact h.1)
        (hfree (List.cons_ne_nil _ _)) c.spelled_words (bounded_padded b bs _)
        (by rw [hbody]; exact hne) hrest
      rwa [hbody] at hwritten

/-! ## Splitting

The two together are what the splitter answers. From left to right each clause
that is found is cut off, with the text before its words as the body of the one
before. -/

theorem Placed.laid (h : Placed clauses b bs) (hg : trim g = b)
    (hu : Written g bs u) (hs : Scan.start.run s = .start)
    (hfree : freeAfter true s = true ∨ g ≠ []) :
    Laid clauses s u g bs := by
  induction h generalizing g u s with
  | done =>
      cases hu
      exact .done s g
  | absent hb hbs _ ih =>
      refine .absent ?_ (ih hg hu hs hfree)
      rw [hs]
      exact hu.unseen (by rwa [hg]) hbs _
  | @found c clauses b b' bs hb _ ih =>
      cases hu with
      | @clause _ _ _ x b r htop hgfree hx hr hne hrest =>
          have hfree' : freeAfter true (s ++ g) = true := by
            rw [freeAfter_append]
            rcases hfree with hs' | hnil
            · rwa [hs']
            · rwa [freeAfter_of_ne_nil hnil _ true]
          have hrun : Scan.start.run (s ++ g ++ x) = .start := by
            rw [Scan.run_append, Scan.run_append, hs, hx.run_eq htop]
          refine .found ?_ ?_ hfree' hx.ne_nil (hx.after? hr) hne
            (ih rfl hrest hrun (.inr fun hn => hne (by rw [hn]; rfl)))
          · rw [hs]
            exact Clear.unseen (by rwa [hg]) (hx.behind hgfree r) _
          · rwa [Scan.run_append, hs]

theorem Laid.written_and_placed (h : Laid clauses s u g bs)
    (hs : Scan.start.run s = .start)
    (hfree : freeAfter true s = true ∨ g ≠ [] ∧ Bounded g) :
    Written g bs u ∧ Placed clauses (trim g) bs := by
  induction h with
  | done s g => exact ⟨.done g, .done _⟩
  | absent h _ ih =>
      obtain ⟨hwritten, hplaced⟩ := ih hs hfree
      rw [hs] at h
      obtain ⟨hb, hbs⟩ := hwritten.clear hfree h
      exact ⟨hwritten, .absent hb hbs hplaced⟩
  | @found c clauses s g x r b bs h htop hgfree _ hafter hb hrest ih =>
      obtain ⟨x', hx, heq, hr⟩ := after?_eq_some_iff.1 hafter
      obtain rfl := List.append_cancel_right heq
      rw [Scan.run_append, hs] at htop
      rw [hs] at h
      have hgfree' : freeAfter true g = true := by
        by_cases hnil : g = []
        · rw [hnil]
          rfl
        · rwa [freeAfter_append, freeAfter_of_ne_nil hnil _ true] at hgfree
      have hrun : Scan.start.run (s ++ g ++ x) = .start := by
        rw [Scan.run_append, Scan.run_append, hs, hx.run_eq htop]
      have hne : b ≠ [] := fun hn => hb (by rw [hn]; rfl)
      obtain ⟨⟨r', rfl⟩, _⟩ := hrest.spans
      obtain ⟨hwritten, hplaced⟩ := ih hrun (.inr ⟨hne, hr.of_append⟩)
      exact ⟨.clause htop hgfree' hx hr hb hwritten,
        .found (h.clear (hfree.imp_right And.right) (hx.behind hgfree' _))
          hplaced⟩

theorem exists_laid
    (h : bodies? (s ++ u) (spans (s ++ u) clauses s.length) = some bs) :
    ∃ g, Laid clauses s u g bs ∧
      boundary (s ++ u) (spans (s ++ u) clauses s.length) =
        (s ++ g).length := by
  induction clauses generalizing s u bs with
  | nil =>
      cases h
      exact ⟨u, .done s u, rfl⟩
  | cons c cs ih =>
      rw [spans] at h ⊢
      rcases unseen_or_exists c (Scan.start.run s) (freeAfter true s) u with
        hu | ⟨g, x, r, rfl, hg, htop, hfree, hx, hr⟩
      · rw [find?_eq_none_of_unseen hu] at h ⊢
        obtain ⟨g, hlaid, hboundary⟩ := ih h
        exact ⟨g, .absent hu hlaid, hboundary⟩
      · rw [← Scan.run_append] at htop
        rw [← freeAfter_append] at hfree
        have hafter := hx.after? hr
        have hsplit : s ++ (g ++ (x ++ r)) = s ++ g ++ x ++ r := by simp
        rw [find?_eq_some_of_unseen hg htop hfree hx.ne_nil hafter] at h ⊢
        rw [hsplit] at h ⊢
        simp only [bodies?] at h
        split at h
        · cases h
        · cases h
        · next rest hrest hnil =>
            cases h
            obtain ⟨b, hlaid, hboundary⟩ := ih hrest
            obtain ⟨⟨r', hr'⟩, _⟩ := hlaid.spans
            have hbody :
                ((s ++ g ++ x ++ r).take (s ++ g ++ x ++ b).length).drop
                  (s ++ g ++ x).length = b := by
              rw [hr', ← List.append_assoc (s ++ g ++ x) b r', List.take_left,
                List.drop_left]
            rw [hboundary, hbody] at hnil ⊢
            exact ⟨g, .found hg htop hfree hx.ne_nil hafter hnil hlaid, rfl⟩

/-- What a text is split into. -/
theorem split?_eq_some_iff :
    split? clauses u = some bs ↔
      ∃ g, Blanks g ∧ Written g bs u ∧ Placed clauses [] bs := by
  constructor
  · intro h
    rw [split?] at h
    split at h
    · next hlead =>
        obtain ⟨g, hlaid, hboundary⟩ := exists_laid (s := []) h
        obtain ⟨⟨r, rfl⟩, _⟩ := hlaid.spans
        have hblanks : Blanks g := by
          simp only [List.nil_append, List.length_nil] at hboundary
          rwa [hboundary, List.take_left, trim_eq_nil_iff] at hlead
        obtain ⟨hwritten, hplaced⟩ := hlaid.written_and_placed rfl (.inl rfl)
        exact ⟨g, hblanks, hwritten,
          by rwa [trim_eq_nil_iff.2 hblanks] at hplaced⟩
    · cases h
  · rintro ⟨g, hg, hwritten, hplaced⟩
    exact (hplaced.laid (trim_eq_nil_iff.2 hg) hwritten rfl
      (.inl rfl)).split?_eq hg

theorem split?_text (h : Placed clauses [] bs) (hchained : Chained [] bs)
    (hbs : ∀ p ∈ bs, p.2 ≠ [] ∧ Trimmed p.2) :
    split? clauses (text bs) = some bs :=
  split?_eq_some_iff.2 ⟨[], blanks_nil,
    hchained.written (g := []) hbs (fun _ => rfl), h⟩

/-- What is asked of a body for the clauses that are chosen says the same of the
body alone. -/
theorem Silent.clear (h : clause.Silent b) : clause.Clear b :=
  (h true [] closing_nil).2

theorem Chosen.placed (h : Chosen clauses bs) (hb : ∀ c ∈ clauses, c.Clear b) :
    Placed clauses b bs := by
  induction h generalizing b with
  | nil => exact .done b
  | skip hsilent _ ih =>
      rw [List.forall_mem_cons] at hb
      exact .absent hb.1
        (fun p hp => ⟨(hsilent p hp).1, (hsilent p hp).2.clear⟩) (ih hb.2)
  | take _ _ _ hsilent _ ih =>
      rw [List.forall_mem_cons] at hb
      exact .found hb.1 (ih fun c hc => (hsilent c hc).clear)

theorem Chosen.chained (h : Chosen clauses bs)
    (hb : bs ≠ [] → (Scan.start.run b).atTop = true) : Chained b bs := by
  induction h generalizing b with
  | nil => trivial
  | skip _ _ ih => exact ih hb
  | take _ _ hcloses _ _ ih => exact ⟨hb (List.cons_ne_nil _ _), ih hcloses⟩

theorem Chosen.trimmed (h : Chosen clauses bs) :
    ∀ p ∈ bs, p.2 ≠ [] ∧ Trimmed p.2 := by
  induction h with
  | nil => exact fun p hp => absurd hp List.not_mem_nil
  | skip _ _ ih => exact ih
  | take hne htrim _ _ _ ih => exact List.forall_mem_cons.2 ⟨⟨hne, htrim⟩, ih⟩

theorem Chosen.split?_text (h : Chosen clauses bs) :
    split? clauses (text bs) = some bs :=
  Clause.split?_text (h.placed fun c _ => c.clear_nil) (h.chained fun _ => rfl)
    h.trimmed

theorem Chosen.split?_spaced (h : Chosen clauses bs) :
    split? clauses (spaced bs) = some bs := by
  cases bs with
  | nil => exact h.split?_text
  | cons p ps =>
      have hchained : Chained (trim [.char ' ']) (p :: ps) :=
        h.chained fun _ => rfl
      exact split?_eq_some_iff.2 ⟨[.char ' '], blanks_space,
        hchained.written h.trimmed fun _ => rfl,
        h.placed fun c _ => c.clear_nil⟩

/-- The first clause that is found must not have another text before it. -/
theorem split?_eq_none {absent : List Clause}
    (habsent : ∀ c ∈ absent, c.Unseen .start true [] (g ++ (x ++ r)))
    (hclear : clause.Clear (trim g)) (htop : (Scan.start.run g).atTop = true)
    (hfree : freeAfter true g = true) (hx : clause.Spelled x) (hr : Bounded r)
    (hg : ¬ Blanks g) :
    split? (absent ++ clause :: clauses) (g ++ (x ++ r)) = none := by
  have hspans : spans (g ++ (x ++ r)) (absent ++ clause :: clauses) 0 =
      ⟨clause, g.length, (g ++ x).length⟩ :: spans (g ++ (x ++ r)) clauses
        (g ++ x).length := by
    induction absent with
    | nil =>
        have hfind :
            clause.find? (g ++ (x ++ r)) 0 = some (g.length, (g ++ x).length) :=
            find?_eq_some_of_unseen (s := [])
              (hclear.unseen (hx.behind hfree r) true) htop hfree
              hx.ne_nil (hx.after? hr)
        rw [List.nil_append, spans, hfind]
    | cons c cs ih =>
        rw [List.forall_mem_cons] at habsent
        have hfind : c.find? (g ++ (x ++ r)) 0 = none :=
          find?_eq_none_of_unseen (s := []) habsent.1
        rw [List.cons_append, spans, hfind]
        exact ih habsent.2
  have hlead : trim ((g ++ (x ++ r)).take g.length) ≠ [] := by
    rw [List.take_left, ne_eq, trim_eq_nil_iff]
    exact hg
  rw [split?, hspans]
  exact if_neg hlead

/-- The clause that is found first must be the first one. -/
theorem Written.split?_eq_none {absent : List Clause} {p : Clause × Text}
    {front back : List (Clause × Text)}
    (h : Written g (p :: front ++ (clause, b) :: back) u)
    (hg : ∀ c : Clause, c.Clear (trim g))
    (habsent : ∀ c ∈ absent, ∀ q ∈ p :: front ++ (clause, b) :: back,
      c ≠ q.1 ∧ c.Clear q.2)
    (hfront : ∀ q ∈ p :: front, clause ≠ q.1 ∧ clause.Clear q.2) :
    split? (absent ++ clause :: clauses) u = none := by
  obtain ⟨s, x, b', r, hu, hs, htop, hfree, hx, hr, -, -⟩ := h.exists_cut
  have hunseen : ∀ c ∈ absent, c.Unseen .start true [] u :=
    fun c hc => h.unseen (hg c) (habsent c hc) true
  rw [hu] at hunseen ⊢
  have hclear :=
    (hs.unseen (hg clause) hfront true).clear (.inl rfl) (behind_nil s)
  exact Clause.split?_eq_none hunseen hclear htop hfree hx hr hs.not_blanks

end RowSql.Clause
