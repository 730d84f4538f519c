import Mathlib.Data.List.Forall2
import RowSql.Proofs.Statement.Outcomes

/-!
# The canonical text of a SELECT

A SELECT is written in one way only: its columns with nothing but a comma
between them, single spaces, upper-case words, the direction always, and no
zeros before a limit. The parser reads much more than it is meant to read, and
so the columns and the filter of a SELECT can be nearly any text, with quotes
and parentheses that are never closed and with the words of clauses in them. But
every SELECT that it has read, it reads again from the canonical text: what it
has found where the clauses are does not change when blanks are taken out, since
no blank counts for more than to end a backslash's effect, and no clause is seen
in a body now that was not seen in it before.
-/

namespace RowSql

open Text Statement

/-! ## Columns

Columns may hold quotes that never close. What is taken out between them is
blanks at a comma, and a scan is in the same state behind the comma with and
without them. -/

namespace Clause

variable {clause : Clause} {st : Scan} {free free' : Bool} {r r' s t : Text}

/-- Of what stands behind a text, only whether a blank does counts for a clause
of one word. -/
theorem Unseen.of_apart (hwords : clause.otherWords = []) (hapart : Apart r')
    (hbounded : Bounded r' → Bounded r) (h : clause.Unseen st free r s) :
    clause.Unseen st free r' s := by
  refine h.of_suffixes fun t _ hnone => ?_
  rw [Option.eq_none_iff_forall_ne_some] at hnone ⊢
  intro u hu
  obtain ⟨_, ⟨x, y, hx, hy, rfl⟩, heq, hbounded'⟩ := after?_eq_some_iff.1 hu
  rw [hwords] at hy
  cases hy
  rw [List.append_nil] at heq
  -- the word ends in the text, for none of its letters stands behind it
  obtain ⟨w, rfl, rfl⟩ :=
    clause.isKeyword_firstWord.exists_of_append hx hapart heq
  rw [List.append_assoc] at hnone
  exact hnone _ (after?_eq_some hwords hx (hbounded'.append_of_imp hbounded))

section

variable (hst : st.Sound) (hescaped : st.escaped = false)

include hst hescaped

theorem run_of_blanks {b : Text} (hb : Blanks b) : st.run b = st := by
  by_cases hne : b = []
  · rw [hne]
    rfl
  · rw [Scan.run_eq_settled hst (Scan.plain_of_blanks hb) hne, Scan.settled,
      ← hescaped]

/-- A comma behind a text ends what a backslash began, and so do blanks before
it. -/
theorem run_append_comma {l w l' : Text} (hl : Blanks l) (hl' : Blanks l') :
    st.run (l ++ (w ++ l') ++ [.char ',']) = (st.run w).settled := by
  have hplain : ∀ c ∈ l' ++ [.char ','], Scan.Plain c := by
    refine List.forall_mem_append.2 ⟨Scan.plain_of_blanks hl', ?_⟩
    simp only [List.mem_singleton, forall_eq]
    decide
  have hsplit :
      l ++ (w ++ l') ++ [CodePoint.char ','] =
        l ++ (w ++ (l' ++ [.char ','])) := by simp
  rw [hsplit, Scan.run_append, run_of_blanks hst hescaped hl, Scan.run_append,
    Scan.run_eq_settled (hst.run w) hplain (by simp)]

/-- The first of the texts between commas, without the blanks around it. -/
theorem unseen_trim (hfree : free' = true → free = true)
    (hwords : clause.otherWords = []) (hapart : Apart r')
    (hbounded : Bounded r' → Bounded r) (h : clause.Unseen st free r s) :
    clause.Unseen st free' r' (trim s) := by
  obtain ⟨l, l', hl, hl', hs⟩ := exists_eq_trim s
  generalize trim s = w at hs
  rw [hs, unseen_append, unseen_append, run_of_blanks hst hescaped hl] at h
  have hrest : Bounded r' → Bounded (l' ++ r) := by
    intro hr'
    cases l' with
    | nil => exact hbounded hr'
    | cons c l' => exact hl'.bounded (List.cons_ne_nil c l')
  refine (h.2.1.of_apart hwords hapart hrest).mono_free fun hf => ?_
  rw [hfree hf]
  exact freeAfter_of_blanks hl

end

/-- Taking out the blanks around the texts between commas shows no clause of one
word that was not seen before. -/
theorem unseen_join_trim {ps : List Text} (free' : Bool) (hst : st.Sound)
    (hescaped : st.escaped = false) (hfree : free' = true → free = true)
    (hwords : clause.otherWords = [])
    (h : clause.Unseen st free [] (join [.char ','] ps)) :
    clause.Unseen st free' [] (join [.char ','] (ps.map trim)) ∧
      (st.run (join [.char ','] (ps.map trim))).settled =
        (st.run (join [.char ','] ps)).settled := by
  induction ps generalizing st free free' with
  | nil => exact ⟨trivial, rfl⟩
  | cons p ps ih =>
      obtain ⟨l, l', hl, hl', hp⟩ := exists_eq_trim p
      cases ps with
      | nil =>
          refine ⟨unseen_trim hst hescaped hfree hwords apart_nil id h, ?_⟩
          show (st.run (trim p)).settled = (st.run p).settled
          conv_rhs => rw [hp, Scan.run_append, run_of_blanks hst hescaped hl,
            Scan.run_append]
          by_cases hne : l' = []
          · rw [hne]
            rfl
          · rw [Scan.run_eq_settled (hst.run _) (Scan.plain_of_blanks hl') hne]
            rfl
      | cons q qs =>
          have hcomma :
              st.run (p ++ [.char ',']) = (st.run (trim p)).settled := by
            conv_lhs => rw [hp]
            exact run_append_comma hst hescaped hl hl'
          have hcomma' :
              st.run (trim p ++ [.char ',']) = (st.run (trim p)).settled := by
            have hnil :=
              run_append_comma (w := trim p) hst hescaped blanks_nil blanks_nil
            rwa [List.nil_append, List.append_nil] at hnil
          rw [join, unseen_append, hcomma, unseen_append] at h
          obtain ⟨⟨hhead, _⟩, hrest⟩ := h
          have hsettled : (st.run (trim p)).settled.Sound := hst.run _
          obtain ⟨hunseen, hrun⟩ :=
            ih false hsettled rfl (fun h => absurd h Bool.false_ne_true) hrest
          have hjoin : join [.char ','] ((p :: q :: qs).map trim) =
              trim p ++ [.char ','] ++ join [.char ','] ((q :: qs).map trim) :=
              rfl
          rw [hjoin]
          constructor
          · rw [unseen_append, hcomma', unseen_append, freeAfter_append]
            refine ⟨⟨?_, unseen_of_marks (by decide)⟩, hunseen⟩
            refine unseen_trim hst hescaped hfree hwords
              (apart_cons.2 (by decide)) ?_ hhead
            exact fun hb => absurd (bounded_cons.1 hb) (by decide)
          · rw [Scan.run_append, hcomma', hrun, join, Scan.run_append, hcomma]

end Clause

/-! ## Bodies

A body is replaced by another that shows no more clauses and leaves the scan the
same. The filter stays as it is; an order and a limit are written out, and then
they show only words that the old body showed. -/

namespace Clause

variable {clauses : List Clause} {b b' : Text} {bs bs' : List (Clause × Text)}

/-- Another body for the same clause, in which nothing is seen that was not seen
before and that leaves quotes and parentheses where the first one did. -/
structure Recast (p q : Clause × Text) : Prop where
  clause : p.1 = q.1
  clear : ∀ c : Clause, c.Clear p.2 → c.Clear q.2
  closes : (Scan.start.run p.2).atTop = true → (Scan.start.run q.2).atTop = true

theorem Recast.refl (p : Clause × Text) : Recast p p := ⟨rfl, fun _ => id, id⟩

theorem forall_mem_recast {property property' : Clause × Text → Prop}
    (h : List.Forall₂ Recast bs bs')
    (hp : ∀ p q, Recast p q → property p → property' q)
    (hbs : ∀ p ∈ bs, property p) : ∀ q ∈ bs', property' q := by
  induction h with
  | nil => exact fun q hq => absurd hq List.not_mem_nil
  | cons hpq _ ih =>
      rw [List.forall_mem_cons] at hbs ⊢
      exact ⟨hp _ _ hpq hbs.1, ih hbs.2⟩

/-- Clauses stay where they are looked for when their bodies are recast. -/
theorem Placed.recast (h : Placed clauses b bs)
    (hb : ∀ c : Clause, c.Clear b → c.Clear b')
    (hbs : List.Forall₂ Recast bs bs') : Placed clauses b' bs' := by
  induction h generalizing b' bs' with
  | done =>
      cases hbs
      exact .done b'
  | absent hclear hall _ ih =>
      refine .absent (hb _ hclear)
        (forall_mem_recast hbs (fun p q hpq hp => ?_) hall) (ih hb hbs)
      exact ⟨hpq.clause ▸ hp.1, hpq.clear _ hp.2⟩
  | @found c clauses b b₁ bs hclear _ ih =>
      cases hbs with
      | @cons _ q _ qs hpq hbs =>
          obtain ⟨c', b₂⟩ := q
          obtain rfl : c = c' := hpq.clause
          exact .found (hb _ hclear) (ih hpq.clear hbs)

theorem Chained.recast (h : Chained b bs)
    (hb : (Scan.start.run b).atTop = true → (Scan.start.run b').atTop = true)
    (hbs : List.Forall₂ Recast bs bs') : Chained b' bs' := by
  induction hbs generalizing b b' with
  | nil => trivial
  | cons hpq _ ih => exact ⟨hb h.1, ih h.2 hpq.closes⟩

/-- A field is not the word of a clause that is not seen in the order that it
stands in. -/
theorem not_spells_of_clear {clause : Clause} (hwords : clause.otherWords = [])
    {body : Text} {o : Text × Direction} (ho : Orders body o)
    (h : clause.Clear body) :
    ¬ Spells clause.firstWord o.1 := by
  intro hspells
  obtain ⟨field, direction⟩ := o
  obtain ⟨rest, hrest, rfl⟩ : ∃ rest, Bounded rest ∧ body = field ++ rest := by
    cases ho with
    | field h => exact ⟨[], bounded_nil, (List.append_nil body).symm⟩
    | word h hb hne hx hupper => exact ⟨_, hb.bounded hne, rfl⟩
  have hfound := after?_eq_some hwords hspells hrest
  obtain ⟨c, field, rfl⟩ := List.exists_cons_of_ne_nil ho.isField.ne_nil
  have hnone := h.1 rfl rfl
  rw [List.append_nil] at hnone
  cases hnone.symm.trans hfound

/-- The body of an order, written out, shows no clause that it did not show
before. -/
theorem clear_orderBody {clause : Clause} {body : Text} {o : Text × Direction}
    (ho : Orders body o) (h : clause.Clear body) :
    clause.Clear (orderBody o.1 o.2) := by
  obtain ⟨field, direction⟩ := o
  have hfield : IsField field := ho.isField
  have hspace : Bounded (.char ' ' :: direction.word) :=
    bounded_cons.2 (by decide)
  have hword : (∀ c ∈ direction.word, isBlank c = false) ∧
      ¬ Spells clause.firstWord direction.word ∧
        afterWord? "BY".toText (trimLeft (.char ' ' :: direction.word)) =
          none := by
    cases clause <;> cases direction <;> decide
  have hhead : clause.after? (field ++ .char ' ' :: direction.word) = none := by
    cases hclause : clause with
    | order => exact after?_order_eq_none_of_noBy hfield.solid hspace hword.2.2
    | source | filter | limit =>
        subst hclause
        exact after?_eq_none_of_not_spells hfield.solid
          (not_spells_of_clear rfl ho h) hspace.apart
  rw [Clear, orderBody, unseen_append, List.append_nil]
  refine ⟨unseen_of_solid hfield.solid hhead, ?_, ?_⟩
  · exact fun _ _ => after?_eq_none_of_apart (apart_cons.2 (by decide))
  · exact unseen_of_solid hword.1
      (after?_eq_none_of_not_spells hword.1 hword.2.1 apart_nil)

theorem recast_order {body : Text} {o : Text × Direction} (h : Orders body o) :
    Recast (.order, body) (.order, orderBody o.1 o.2) := by
  refine ⟨rfl, fun _ => clear_orderBody h, fun _ => ?_⟩
  have hplain := (List.forall_mem_cons.1 (plain_orderBody h.isField o.2)).2
  show ((Scan.outside 0).run (orderBody o.1 o.2)).atTop = true
  rw [Scan.run_plain hplain]
  rfl

theorem recast_limit (body : Text) (n : Nat) :
    Recast (.limit, body) (.limit, ofInt (.ofNat n)) := by
  have htext : ofInt (.ofNat n) = Text.ofNat n :=
    ofInt_of_nonneg (Int.natCast_nonneg n)
  have hplain : ∀ c ∈ Text.ofNat n, Scan.Plain c :=
    forall_mem_ofNat (by decide) n
  refine ⟨rfl, fun c _ => ?_, fun _ => ?_⟩
  · rw [htext]
    exact unseen_of_marks fun _ hc => (mark_of_mem_ofNat hc).2
  · rw [htext]
    show ((Scan.outside 0).run _).atTop = true
    rw [Scan.run_plain hplain]
    rfl

/-- Clauses that are found in their order are a filter, an order and a limit,
each of them or none. -/
theorem Placed.eq_lookups (h : Placed selectClauses b bs) :
    bs = (bs.lookup .filter).toList.map (.filter, ·) ++
      ((bs.lookup .order).toList.map (.order, ·) ++
        (bs.lookup .limit).toList.map (.limit, ·)) := by
  cases h with
  | absent _ _ h => cases h with
    | absent _ _ h => cases h with
      | absent _ _ h => cases h; rfl
      | found _ h => cases h; rfl
    | found _ h => cases h with
      | absent _ _ h => cases h; rfl
      | found _ h => cases h; rfl
  | found _ h => cases h with
    | absent _ _ h => cases h with
      | absent _ _ h => cases h; rfl
      | found _ h => cases h; rfl
    | found _ h => cases h with
      | absent _ _ h => cases h; rfl
      | found _ h => cases h; rfl

end Clause

/-! ## What has been read is read again

Being accepted is a property of the parts that were read, and the canonical text
has it from them: each clause is the one that is found, with the body that it
had. -/

namespace Select

/-- A SELECT in one piece: with nothing but a comma between columns, single
spaces, and everything said that may be left out. -/
def canonical (s : Select) : Text :=
  "SELECT ".toText ++ (join [.char ','] s.columns ++ (" FROM ".toText ++
    (s.table ++ (Join.text s.joins ++ Clause.spaced s.clauses))))

/-- A SELECT whose columns show no word FROM and whose clauses show none of
those that are looked for before they are found. -/
structure IsAccepted (s : Select) : Prop extends s.IsWellFormed where
  clear : Clause.source.Clear (join [.char ','] s.columns)
  closes : (Scan.start.run (join [.char ','] s.columns)).atTop = true
  placed : Clause.Placed selectClauses [] s.clauses
  chained : Clause.Chained [] s.clauses

variable {s : Select} {t : Text}

theorem forall₂_recast {bodies : List (Clause × Text)} {b : Text}
    (h : Clause.Placed selectClauses b bodies)
    (hbodies : ∀ p ∈ bodies, p.2 ≠ [] ∧ Trimmed p.2)
    (hclauses : ClausesOf bodies s) :
    List.Forall₂ Clause.Recast bodies s.clauses := by
  rw [h.eq_lookups, clauses]
  refine List.rel_append ?_ (List.rel_append ?_ ?_)
  · rw [hclauses.filter]
    cases s.filter with
    | none => exact .nil
    | some w => exact .cons (.refl _) .nil
  · rcases hclauses.orders hbodies with ⟨hnone, hs⟩ | ⟨body, o, hbody, ho, hs⟩
    · rw [hnone, hs]
      exact .nil
    · rw [hbody, hs]
      exact .cons (Clause.recast_order ho) .nil
  · rcases hclauses.digits hbodies with ⟨hnone, hs⟩ |
      ⟨body, n, hbody, _, _, _, hs⟩
    · rw [hnone, hs]
      exact .nil
    · rw [hbody, hs]
      exact .cons (Clause.recast_limit body n) .nil

theorem isAccepted_of_readFrom (h : ReadFrom t s) : s.IsAccepted := by
  obtain ⟨cs, x, r, _, hunseen, htop, hfree, hx, hread⟩ := h.columns
  obtain ⟨u, bodies, _, _, hsplit, hclauses⟩ := h.clauses
  obtain ⟨g, hg, hwritten, hplaced⟩ := Clause.split?_eq_some_iff.1 hsplit
  have hrecast := forall₂_recast hplaced hwritten.trimmed hclauses
  have hchained := hwritten.chained
  rw [trim_eq_nil_iff.2 hg] at hchained
  have hjoin : join [.char ','] (cs.splitOn (.char ',')) = cs := by
    rw [join_eq_intercalate, List.intercalate_splitOn]
  have hcs :
      Clause.source.Unseen .start true []
        (join [.char ','] (cs.splitOn (.char ','))) := by
    rw [hjoin]
    exact (hunseen.clear (.inl rfl) (hx.behind hfree r)).unseen
      (Clause.behind_nil cs) true
  obtain ⟨hclear, hrun⟩ :=
    Clause.unseen_join_trim true Scan.sound_start rfl id rfl hcs
  rw [hjoin,
    ← (readColumns?_eq_some_iff.1 hread).1] at hrun
  rw [← (readColumns?_eq_some_iff.1 hread).1] at hclear
  refine ⟨h.isWellFormed, hclear, ?_, hplaced.recast (fun _ => id) hrecast,
    hchained.recast id hrecast⟩
  rw [← Scan.atTop_settled, hrun, Scan.atTop_settled]
  exact htop

theorem IsWellFormed.trimmed_columns (h : s.IsWellFormed) :
    join [.char ','] s.columns ≠ [] ∧ Trimmed (join [.char ','] s.columns) := by
  obtain ⟨c, cs, hcs⟩ := List.exists_cons_of_ne_nil h.nonempty
  obtain ⟨r, hr⟩ := exists_join_cons [.char ','] c cs
  obtain ⟨p, z, hz, hp⟩ := exists_join_eq_append [.char ','] h.nonempty
  obtain ⟨hne, htrim, _⟩ := h.columns c (hcs ▸ List.mem_cons_self)
  obtain ⟨hne', htrim', _⟩ := h.columns z hz
  refine ⟨?_, ?_, ?_⟩
  · rw [hp]
    exact List.append_ne_nil_of_right_ne_nil p hne'
  · rw [hcs, hr]
    exact (flushLeft_append hne).2 htrim.head
  · rw [hp]
    exact (flushRight_append hne').2 htrim'.last

theorem IsAccepted.readSelect_canonical (h : s.IsAccepted) :
    readSelect s.canonical = .ok s := by
  obtain ⟨hne, htrim⟩ := h.trimmed_columns
  have ht : s.canonical.drop Kind.select.word.length =
      ([.char ' '] ++ (join [.char ','] s.columns ++ [.char ' '])) ++
        ("FROM".toText ++
          (.char ' ' ::
            (s.table ++ (Join.text s.joins ++ Clause.spaced s.clauses)))) := by
    rw [canonical]
    simp only [List.append_assoc]
    rfl
  generalize hcs :
      [CodePoint.char ' '] ++ (join [.char ','] s.columns ++ [.char ' ']) = cs
      at ht
  have hbody : trim cs = join [.char ','] s.columns := by
    rw [← hcs, ← List.append_assoc,
      trim_blanks_append blanks_space blanks_space, htrim.trim_eq]
  have hfree : Clause.freeAfter true cs = true := by
    rw [← hcs, ← List.append_assoc]
    exact Clause.freeAfter_concat (by decide)
  have hx : Clause.source.Spelled "FROM".toText := Clause.source.spelled_words
  have hr :
      Bounded
        (.char ' ' ::
          (s.table ++ (Join.text s.joins ++ Clause.spaced s.clauses))) :=
      bounded_cons.2 (by decide)
  have hclear : Clause.source.Clear (trim cs) := hbody ▸ h.clear
  have hunseen := hclear.unseen
    (hx.behind hfree
      (.char ' ' ::
        (s.table ++ (Join.text s.joins ++ Clause.spaced s.clauses)))) true
  have htop : (Scan.start.run cs).atTop = true := by
    rw [← Clause.atTop_trim, hbody]
    exact h.closes
  have hcolumns : readColumns? cs = some s.columns := by
    have hpieces :=
      trim_splitOn_join h.nonempty (fun c hc => (h.columns c hc).2) blanks_nil
        blanks_space blanks_space
    rw [hcs] at hpieces
    exact readColumns?_eq_some_iff.2 ⟨hpieces.symm,
      fun hmem => (h.columns _ hmem).1 rfl⟩
  have htable :
      trimLeft
        (.char ' ' ::
          (s.table ++ (Join.text s.joins ++ Clause.spaced s.clauses))) =
        s.table ++ (Join.text s.joins ++ Clause.spaced s.clauses) := by
    rw [trimLeft_cons_blank (by decide)]
    exact ((flushLeft_append h.table.ne_nil).2 h.table.trimmed.head).trimLeft_eq
  rw [readSelect_of_parts ht hunseen htop hfree hx.ne_nil
    (hx.after? hr) hcolumns htable h.table
    h.joins (bounded_joins s.joins s.clauses) (Clause.bounded_spaced s.clauses)
      fun c hc =>
        joinOpening?_eq_none
          ((congrArg trimLeft hc).trans (Clause.trimLeft_spaced s.clauses)),
    Clause.trimLeft_spaced,
    Clause.split?_text h.placed h.chained h.trimmed_clauses]
  have hclauses : required (some s.clauses) = .ok s.clauses := rfl
  simp only [hclauses, bind, Except.bind, pure, Except.pure, h.readClause_order,
    h.readClause_limit, lookup_filter, h.ofNat_limit]

theorem IsWellFormed.trimmed_canonical (h : s.IsWellFormed) :
    Trimmed s.canonical := by
  have hsplit :
      s.canonical =
        ("SELECT ".toText ++ (join [.char ','] s.columns ++ " FROM ".toText)) ++
        (s.table ++ (Join.text s.joins ++ Clause.spaced s.clauses)) := by
    rw [canonical]
    simp only [List.append_assoc]
  refine ⟨flushLeft_cons.2 (by decide), ?_⟩
  rw [hsplit,
    flushRight_append (List.append_ne_nil_of_left_ne_nil h.table.ne_nil _)]
  exact h.table.trimmed.last.append ((flushRight_joins h.joins).append
    (Clause.flushRight_spaced h.trimmed_clauses))

end Select

namespace Statement

theorem readSelect_of_parse {t : Text} {s : Select}
    (h : parse t = .ok (.select s)) :
    readSelect (bare t) = .ok s := by
  obtain ⟨s', hread, heq⟩ := map_eq_ok (readAs_of_parse h)
  cases heq
  exact hread

/-- Whatever has been read as a SELECT is read again from its canonical text. -/
theorem parse_canonical {t : Text} {s : Select}
    (h : parse t = .ok (.select s)) :
    parse (s.canonical ++ [.char ';']) = .ok (.select s) := by
  have haccepted :=
    Select.isAccepted_of_readFrom
      (readFrom_of_readSelect (readSelect_of_parse h))
  have hbare : bare (s.canonical ++ [.char ';']) = s.canonical :=
    bare_closed haccepted.trimmed_canonical (List.cons_ne_nil _ _)
  have hread : readAs .select s.canonical = .ok (.select s) := by
    rw [readAs, haccepted.readSelect_canonical]
    rfl
  exact parse_of_readAs .select hbare hread

/-- A SELECT with columns that are none, and a limit in its filter. -/
def oddSelect : Select where
  table := "t".toText
  columns := ["f( a".toText, "'x' )".toText]
  joins := []
  filter := some "b LIMIT 2".toText
  order := some ("a".toText, .ascending)
  limit := some 7

theorem parse_canonical_oddSelect :
    parse
        ("SELECT f( a , 'x' ) FROM t ".toText ++
          "WHERE b LIMIT 2 ORDER BY a LIMIT 007;".toText) =
      .ok (.select oddSelect) ∧
      oddSelect.canonical =
        "SELECT f( a,'x' ) FROM t ".toText ++
          "WHERE b LIMIT 2 ORDER BY a ASC LIMIT 7".toText ∧
      parse (oddSelect.canonical ++ [.char ';']) = .ok (.select oddSelect) := by
  have htext :
      "SELECT f( a , 'x' ) FROM t ".toText ++
          "WHERE b LIMIT 2 ORDER BY a LIMIT 007;".toText =
        (Kind.select.word ++ .char ' ' ::
          ("f( a , 'x' ) FROM t WHERE b LIMIT 2 ORDER BY a LIMIT 00".toText ++
            [.char '7'])) ++ [.char ';'] := by
    cbv
  have hdrop : (Kind.select.word ++ CodePoint.char ' ' ::
      ("f( a , 'x' ) FROM t WHERE b LIMIT 2 ORDER BY a LIMIT 00".toText ++
        [CodePoint.char '7'])).drop
        Kind.select.word.length =
      " f( a , 'x' ) ".toText ++
        ("FROM".toText ++
          " t WHERE b LIMIT 2 ORDER BY a LIMIT 007".toText) := by
    rw [List.drop_left]
    cbv
  have hcolumns :
      readColumns? " f( a , 'x' ) ".toText = some oddSelect.columns := by decide
  have htable : trimLeft " t WHERE b LIMIT 2 ORDER BY a LIMIT 007".toText =
      "t".toText ++
        (Join.text [] ++ " WHERE b LIMIT 2 ORDER BY a LIMIT 007".toText) := by
    rfl
  have hend {c : Cursor}
      (hc : c.rest = " WHERE b LIMIT 2 ORDER BY a LIMIT 007".toText) :
      joinOpening? c = none := by
    have hrest :
        trimLeft c.rest =
          "WHERE".toText ++ " b LIMIT 2 ORDER BY a LIMIT 007".toText := by
      rw [hc]
      rfl
    exact joinOpening?_of_word hrest (by decide) (bounded_cons.2 (by decide))
      (by decide)
  have hclauses :
      Clause.split? selectClauses
        "WHERE b LIMIT 2 ORDER BY a LIMIT 007".toText =
        some [(.filter, "b LIMIT 2".toText), (.order, "a".toText),
          (.limit, "007".toText)] := by
    decide
  have hread :
      parse
          ("SELECT f( a , 'x' ) FROM t ".toText ++
            "WHERE b LIMIT 2 ORDER BY a LIMIT 007;".toText) =
        .ok (.select oddSelect) := by
    rw [htext]
    refine parse_of_readAs .select
      (bare_closed ⟨flushLeft_cons.2 (by decide), ?_⟩ (List.cons_ne_nil _ _)) ?_
    · rw [← List.cons_append, ← List.append_assoc, flushRight_concat]
      decide
    · rw [readAs, readSelect_of_parts hdrop (by decide) (by decide) (by decide)
        (List.cons_ne_nil _ _) (by decide) hcolumns htable
          ⟨List.cons_ne_nil _ _, by decide⟩ (List.forall_mem_nil _)
        (bounded_cons.2 (by decide)) (bounded_cons.2 (by decide)) fun c hc =>
          hend hc]
      show ((required (Clause.split? selectClauses
        "WHERE b LIMIT 2 ORDER BY a LIMIT 007".toText) >>= _).map _) = _
      rw [hclauses]
      rfl
  refine ⟨hread, ?_, parse_canonical hread⟩
  have hlimit : ofInt 7 = "7".toText := by
    rw [ofInt_of_nonneg (by decide), ofNat]
    rfl
  have hbodies : oddSelect.clauses =
      [(.filter, "b LIMIT 2".toText), (.order, "a ASC".toText),
        (.limit, "7".toText)] := by
    rw [← hlimit]
    rfl
  rw [Select.canonical, hbodies]
  rfl

end Statement

end RowSql
