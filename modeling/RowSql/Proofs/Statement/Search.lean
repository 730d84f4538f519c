import RowSql.Proofs.Statement.Bodies

/-!
# Where a search ends

A search for a clause goes over a text from left to right, and there are two
ways for it to end: the whole text is unseen, or some part of it is and behind
that part stand the words of the clause. What it needs of the words is only how
they are spelled: in any letter case, with any blanks between them, and with a
blank or nothing behind them.
-/

namespace RowSql

open Text

/-! ## Spellings

The words of a clause are spelled in any letter case, with any blanks between
them. Every fact about such a spelling is one about its letters: they are none
of quotes, of parentheses and of blanks. -/

/-- Spellings of words, each of them behind blanks. -/
inductive Follows : List Text → Text → Prop
  | nil : Follows [] []
  | cons {word : Text} {words : List Text} {b x y : Text} (hb : Blanks b)
      (hne : b ≠ [])
      (hx : Spells word x) (hy : Follows words y) :
        Follows (word :: words) (b ++ (x ++ y))

theorem Follows.plain {words : List Text} {y : Text} (hy : Follows words y)
    (hw : ∀ w ∈ words, IsKeyword w) : ∀ c ∈ y, Scan.Plain c := by
  induction hy with
  | nil => exact fun c hc => absurd hc List.not_mem_nil
  | @cons word words b x y hb _ hx _ ih =>
      rw [List.forall_mem_cons] at hw
      refine List.forall_mem_append.2 ⟨Scan.plain_of_blanks hb, ?_⟩
      exact List.forall_mem_append.2
        ⟨fun c hc => Scan.plain_of_spells hw.1 hx hc, ih hw.2⟩

theorem Follows.bounded {words : List Text} {y r : Text} (hy : Follows words y)
    (hr : Bounded r) :
    Bounded (y ++ r) := by
  cases hy with
  | nil => exact hr
  | cons hb hne _ _ =>
      rw [List.append_assoc]
      exact hb.bounded hne

namespace Clause

variable {clause : Clause} {st : Scan} {free : Bool} {r s t u w x : Text}

theorem afterOtherWords?_eq_some_iff {words : List Text}
    (hw : ∀ w ∈ words, IsKeyword w) :
    afterOtherWords? words t = some u ↔ ∃ y, Follows words y ∧ t = y ++ u := by
  induction words generalizing t with
  | nil =>
      constructor
      · intro h
        cases h
        exact ⟨[], .nil, rfl⟩
      · rintro ⟨y, hy, rfl⟩
        cases hy
        rfl
  | cons word words ih =>
      rw [List.forall_mem_cons] at hw
      rw [afterOtherWords?]
      constructor
      · intro h
        split at h
        · next hblank =>
            split at h
            · next rest hrest =>
                obtain ⟨x, hx, ht⟩ := afterWord?_eq_some_iff.1 hrest
                obtain ⟨y, hy, rfl⟩ := (ih hw.2).1 h
                obtain ⟨b, hb, hbt⟩ := exists_eq_append_trimLeft t
                refine ⟨b ++ (x ++ y), .cons hb ?_ hx hy, ?_⟩
                · rintro rfl
                  -- the text begins with a blank, and a spelling does not
                  rw [hbt, ht, List.nil_append] at hblank
                  obtain ⟨c, x, rfl⟩ :=
                    List.exists_cons_of_ne_nil (hw.1.spelling_ne_nil hx)
                  have hc := hw.1.isBlank_of_mem hx List.mem_cons_self
                  simp [hc] at hblank
                · rw [hbt, ht]
                  simp
            · cases h
        · cases h
      · rintro ⟨y, hy, rfl⟩
        cases hy with
        | @cons _ _ b x y hb hne hx hy =>
            obtain ⟨c, b, rfl⟩ := List.exists_cons_of_ne_nil hne
            have htrim :
                trimLeft (c :: b ++ (x ++ y) ++ u) = x ++ (y ++ u) := by
              rw [List.append_assoc, trimLeft_append_blanks hb,
                List.append_assoc]
              exact (hw.1.flushLeft hx _).trimLeft_eq
            rw [htrim, afterWord?_eq_some_iff.2 ⟨x, hx, rfl⟩]
            simp only [List.cons_append, List.head?_cons, Option.any_some,
              (blanks_cons.1 hb).1, if_true]
            exact (ih hw.2).2 ⟨y, hy, rfl⟩

theorem isKeyword_otherWords (clause : Clause) :
    ∀ w ∈ clause.otherWords, IsKeyword w := by
  cases clause <;> decide

/-- A text spells the words of a clause. -/
def Spelled (clause : Clause) (t : Text) : Prop :=
  ∃ x y, Spells clause.firstWord x ∧ Follows clause.otherWords y ∧ t = x ++ y

/-- A clause begins where its words are spelled and stand alone. -/
theorem after?_eq_some_iff :
    clause.after? t = some u ↔
      ∃ x, clause.Spelled x ∧ t = x ++ u ∧ Bounded u := by
  rw [after?]
  constructor
  · intro h
    split at h
    · next rest hrest =>
        split at h
        · next hfree =>
            cases h
            obtain ⟨v, hv, hother⟩ := Option.bind_eq_some_iff.1 hrest
            obtain ⟨x, hx, rfl⟩ := afterWord?_eq_some_iff.1 hv
            obtain ⟨y, hy, rfl⟩ :=
              (afterOtherWords?_eq_some_iff clause.isKeyword_otherWords).1
                hother
            exact ⟨x ++ y, ⟨x, y, hx, hy, rfl⟩, (List.append_assoc _ _ _).symm,
              opensFree_iff.1 hfree⟩
        · cases h
    · cases h
  · rintro ⟨_, ⟨x, y, hx, hy, rfl⟩, rfl, hu⟩
    have hother : afterOtherWords? clause.otherWords (y ++ u) = some u :=
      (afterOtherWords?_eq_some_iff clause.isKeyword_otherWords).2 ⟨y, hy, rfl⟩
    rw [List.append_assoc, afterWord?_eq_some_iff.2 ⟨x, hx, rfl⟩,
      Option.bind_some, hother]
    exact if_pos (opensFree_iff.2 hu)

namespace Spelled

theorem after? (hx : clause.Spelled x) (hr : Bounded r) :
    clause.after? (x ++ r) = some r :=
  after?_eq_some_iff.2 ⟨x, hx, rfl, hr⟩

theorem ne_nil (hx : clause.Spelled x) : x ≠ [] := by
  obtain ⟨v, y, hv, _, rfl⟩ := hx
  exact List.append_ne_nil_of_left_ne_nil
    (clause.isKeyword_firstWord.spelling_ne_nil hv) y

theorem flushLeft (hx : clause.Spelled x) (r : Text) : FlushLeft (x ++ r) := by
  obtain ⟨v, y, hv, _, rfl⟩ := hx
  rw [List.append_assoc]
  exact clause.isKeyword_firstWord.flushLeft hv _

theorem plain (hx : clause.Spelled x) : ∀ c ∈ x, Scan.Plain c := by
  obtain ⟨v, y, hv, hy, rfl⟩ := hx
  exact List.forall_mem_append.2
    ⟨fun c hc => Scan.plain_of_spells clause.isKeyword_firstWord hv hc,
      hy.plain clause.isKeyword_otherWords⟩

/-- Behind a place where a clause may begin, its words leave a scan at the
start. -/
theorem run_eq (hx : clause.Spelled x) (hst : st.atTop = true) :
    st.run x = Scan.start :=
  Scan.run_plain_of_atTop hst hx.plain hx.ne_nil

end Spelled

theorem spelled_words (clause : Clause) : clause.Spelled clause.words := by
  cases clause with
  | order =>
      exact ⟨"ORDER".toText, " BY".toText, spells_self _,
        .cons (x := "BY".toText) blanks_space (List.cons_ne_nil _ _)
          (spells_self _) .nil, rfl⟩
  | source | filter | limit => exact ⟨_, [], spells_self _, .nil, rfl⟩

/-- The first words of different clauses are spelled differently, and none is
spelled as another word of a clause. -/
theorem firstWord_apart {c : Clause} (h : clause ≠ c) :
    ¬ Spells clause.firstWord c.firstWord := by
  cases clause <;> cases c <;> first | exact absurd rfl h | decide

theorem not_spells_otherWords {c : Clause} :
    ∀ w ∈ c.otherWords, ¬ Spells clause.firstWord w := by
  cases clause <;> cases c <;> decide

/-- A word that is not the first of a clause does not begin it, however it is
spelled. -/
theorem unseen_spelling {word : Text} (hw : IsKeyword word) (hx : Spells word x)
    (hne : ¬ Spells clause.firstWord word) (hr : Bounded r) :
    clause.Unseen st free r x := by
  have hsolid : ∀ c ∈ x, isBlank c = false :=
    fun c hc => hw.isBlank_of_mem hx hc
  refine unseen_of_solid hsolid
    (after?_eq_none_of_not_spells hsolid ?_ hr.apart)
  exact fun h => hne (hx.symm.trans h)

theorem unseen_follows {words : List Text} {y : Text}
    (hw : ∀ w ∈ words, IsKeyword w)
    (hne : ∀ w ∈ words, ¬ Spells clause.firstWord w) (hy : Follows words y)
    (hr : Bounded r) :
    clause.Unseen st free r y := by
  induction hy generalizing st free with
  | nil => trivial
  | cons hb _ hx hy ih =>
      rw [List.forall_mem_cons] at hw hne
      rw [unseen_append, unseen_append]
      exact ⟨unseen_of_blanks hb, unseen_spelling hw.1 hx hne.1 (hy.bounded hr),
        ih hw.2 hne.2⟩

theorem unseen_spelled {c : Clause} (h : clause ≠ c) (hx : c.Spelled x)
    (hr : Bounded r) :
    clause.Unseen st free r x := by
  obtain ⟨v, y, hv, hy, rfl⟩ := hx
  rw [unseen_append]
  exact ⟨unseen_spelling c.isKeyword_firstWord hv (firstWord_apart h)
    (hy.bounded hr),
    unseen_follows c.isKeyword_otherWords not_spells_otherWords hy hr⟩

/-! ## Unseen parts

What is unseen where a word may begin is unseen where none may, and words that
are found before the end of a text are found before a blank as well. -/

theorem Unseen.mono_free {free' : Bool} (h : clause.Unseen st free r s)
    (hfree : free' = true → free = true) : clause.Unseen st free' r s := by
  cases s with
  | nil => trivial
  | cons c s => exact ⟨fun htop hf => h.1 htop (hfree hf), h.2⟩

/-- Where a blank follows, nothing is seen for its being there. -/
theorem Unseen.of_bounded (hr : Bounded r) (h : clause.Unseen st free r s) :
    clause.Unseen st free [] s := by
  refine h.of_suffixes fun t _ hnone => ?_
  rw [Option.eq_none_iff_forall_ne_some] at hnone ⊢
  intro u hu
  rw [List.append_nil] at hu
  -- the words would be found with the blank behind them as well
  obtain ⟨x, hx, rfl, hbounded⟩ := after?_eq_some_iff.1 hu
  rw [List.append_assoc] at hnone
  exact hnone _ (hx.after? (hbounded.append hr))

/-! ## How a search ends

A search that finds nothing has gone over an unseen text. One that finds
something has gone over an unseen part, and behind it are the words. -/

/-- Either no clause begins in a text, or a first one does. -/
theorem unseen_or_exists (clause : Clause) (st : Scan) (free : Bool)
    (u : Text) :
    clause.Unseen st free [] u ∨
      ∃ g x r, u = g ++ (x ++ r) ∧ clause.Unseen st free (x ++ r) g ∧
        (st.run g).atTop = true ∧
        freeAfter free g = true ∧ clause.Spelled x ∧ Bounded r := by
  induction u generalizing st free with
  | nil => exact .inl trivial
  | cons c s ih =>
      by_cases hhere :
          st.atTop = true ∧ free = true ∧ ∃ r, clause.after? (c :: s) = some r
      · obtain ⟨htop, hfree, r, hr⟩ := hhere
        obtain ⟨x, hx, heq, hbounded⟩ := after?_eq_some_iff.1 hr
        exact .inr ⟨[], x, r, heq, trivial, htop, hfree, hx, hbounded⟩
      · have hnone :
            st.atTop = true → free = true → clause.after? (c :: s) = none := by
          intro htop hfree
          rw [Option.eq_none_iff_forall_ne_some]
          exact fun r hr => hhere ⟨htop, hfree, r, hr⟩
        rcases ih (st.step c) (isBlank c) with
          hs | ⟨g, x, r, rfl, hg, htop, hfree, hx, hr⟩
        · exact .inl ⟨by rwa [List.append_nil], hs⟩
        · exact .inr ⟨c :: g, x, r, rfl, ⟨hnone, hg⟩, htop, hfree, hx, hr⟩

theorem exists_of_find? {start stop : Nat}
    (h : clause.find? t 0 = some (start, stop)) :
    ∃ g x r, t = g ++ (x ++ r) ∧ clause.Unseen .start true (x ++ r) g ∧
      (Scan.start.run g).atTop = true ∧ freeAfter true g = true ∧
      clause.Spelled x ∧ Bounded r ∧
        start = g.length ∧ stop = g.length + x.length := by
  rcases unseen_or_exists clause .start true t with
    hu | ⟨g, x, r, rfl, hg, htop, hfree, hx, hr⟩
  · rw [find?_eq_none hu] at h
    cases h
  · rw [find?_append hg htop hfree hx.ne_nil (hx.after? hr) (Nat.zero_le _)]
      at h
    cases h
    exact ⟨g, x, r, rfl, hg, htop, hfree, hx, hr, rfl, rfl⟩

end Clause

end RowSql
