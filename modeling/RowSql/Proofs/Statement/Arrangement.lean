import RowSql.Proofs.Statement.Accepted

/-!
# The order of the clauses

In the grammar a filter comes first, then an order, then a limit. The parser has
no such rule. It looks for each kind behind the one found before, and lets
nothing but blanks stand before the first that is found. Of all ways to arrange
two clauses or three, this reads those of the grammar and refuses nearly every
other, since a clause that is out of order stands before the first one found.

One arrangement slips through: a filter, a limit and an order. The order is
found behind the filter, and the limit is then looked for behind the order only.
It has become a part of the filter, which the limit's words do not end.
-/

namespace RowSql

open Text Statement

/-- A clause of a SELECT as it may be written, with the blanks before its words
and behind them. -/
structure Section where
  clause : Clause
  before : Text
  words : Text
  gap : Text
  body : Text

namespace Section

def text (s : Section) : Text :=
  s.before ++ (s.words ++ (s.gap ++ s.body))

def entry (s : Section) : Clause × Text :=
  (s.clause, s.body)

/-- Sections one after the other. -/
def texts (ss : List Section) : Text :=
  ss.flatMap text

/-- A section that goes on to the end of another one. -/
def through (s t : Section) : Section :=
  { s with body := s.body ++ t.text }

/-- The words of a section, in any letter case, stand alone, and its body opens
no quote and no parenthesis that it does not close. -/
structure IsWritten (s : Section) : Prop where
  before : s.before ≠ [] ∧ Blanks s.before
  words : s.clause.Spelled s.words
  gap : s.gap ≠ [] ∧ Blanks s.gap
  body : s.body ≠ [] ∧ Trimmed s.body
  closes : (Scan.start.run s.body).atTop = true

/-- A body is well formed for its clause. -/
def IsShaped : Clause → Text → Prop
  | .source, _ => False
  | .filter, body => IsFilter body
  | .order, body => ∃ o, Orders body o
  | .limit, body => ∃ n, Digits body n

/-- A section of a SELECT with no words of a clause in its body, unless they are
quoted or in parentheses. -/
structure IsProper (s : Section) : Prop extends s.IsWritten where
  shaped : IsShaped s.clause s.body
  clear : ∀ c ∈ selectClauses, c.Clear s.body

/-! ## Sections that are written

A section closes what it opens, so behind it the next one stands outside of
quotes and parentheses. Sections in whatever order are therefore written one
after the other, and a section may be counted to the body of the one before
it. -/

variable {s t w n o : Section} {ss front back : List Section}

theorem texts_cons (s : Section) (ss : List Section) :
    texts (s :: ss) = s.text ++ texts ss := rfl

theorem IsWritten.bounded_gap (h : s.IsWritten) (r : Text) :
    Bounded (s.gap ++ r) :=
  h.gap.2.bounded h.gap.1

theorem bounded_texts (h : ∀ s ∈ ss, s.IsWritten) : Bounded (texts ss) := by
  cases ss with
  | nil => exact bounded_nil
  | cons s ss =>
      have hs := (h s List.mem_cons_self).before
      rw [texts_cons, text, List.append_assoc]
      exact hs.2.bounded hs.1

/-- A section leaves the scan where it was, outside of quotes and
parentheses. -/
theorem IsWritten.atTop_run (h : s.IsWritten) {st : Scan} (hst : st.Sound)
    (htop : st.atTop = true) : (st.run s.text).atTop = true := by
  have hbefore : (st.run s.before).atTop = true := by
    rw [Scan.atTop_run_blanks hst h.before.2, htop]
  have hgap : Scan.start.run s.gap = .start := Scan.run_blanks h.gap.2 0
  rw [text, Scan.run_append, Scan.run_append, h.words.run_eq hbefore,
    Scan.run_append, hgap]
  exact h.closes

/-- Sections are written behind whatever closes its quotes and parentheses. -/
theorem exists_written {g : Text} (h : ∀ s ∈ ss, s.IsWritten)
    (hg : (Scan.start.run g).atTop = true) :
    ∃ g', trim g' = trim g ∧
      Clause.Written g' (ss.map entry) (g ++ texts ss) := by
  induction ss generalizing g with
  | nil =>
      exact ⟨g, rfl,
        by rw [texts, List.flatMap_nil, List.append_nil]; exact .done g⟩
  | cons s ss ih =>
      rw [List.forall_mem_cons] at h
      obtain ⟨hs, hss⟩ := h
      have hbody : trim (s.gap ++ s.body) = s.body := by
        rw [trim_append_of_blanks hs.gap.2, hs.body.2.trim_eq]
      -- the body of this section stands before the next one, as `g` stands
      -- before this
      obtain ⟨b, hb, hrest⟩ := ih (g := s.gap ++ s.body) hss
        (by rw [← Clause.atTop_trim, hbody]; exact hs.closes)
      rw [hbody] at hb
      refine ⟨g ++ s.before, trim_append_blanks hs.before.2, ?_⟩
      have htop : (Scan.start.run (g ++ s.before)).atTop = true := by
        rwa [← Clause.atTop_trim, trim_append_blanks hs.before.2,
          Clause.atTop_trim]
      have hfree : Clause.freeAfter true (g ++ s.before) = true := by
        rw [Clause.freeAfter_append,
          Clause.freeAfter_of_ne_nil hs.before.1 _ true,
          Clause.freeAfter_of_blanks hs.before.2]
      have hbounded : Bounded (s.gap ++ s.body ++ texts ss) := by
        rw [List.append_assoc]
        exact hs.bounded_gap _
      have hwritten := Clause.Written.clause htop hfree hs.words hbounded
        (by rw [hb]; exact hs.body.1) hrest
      rw [hb] at hwritten
      have htext :
          g ++ texts (s :: ss) =
            g ++ s.before ++ (s.words ++ (s.gap ++ s.body ++ texts ss)) := by
        simp only [texts_cons, text, List.append_assoc]
      rw [htext]
      exact hwritten

theorem written_trimLeft (h : ∀ s ∈ ss, s.IsWritten) :
    Clause.Written [] (ss.map entry) (trimLeft (texts ss)) := by
  obtain ⟨g, hg, hwritten⟩ := exists_written (g := []) h rfl
  exact hwritten.trimLeft (trim_eq_nil_iff.1 hg)

theorem IsWritten.through (hs : s.IsWritten) (ht : t.IsWritten) :
    (s.through t).IsWritten := by
  refine ⟨hs.before, hs.words, hs.gap,
    ⟨List.append_ne_nil_of_left_ne_nil hs.body.1 _, ?_, ?_⟩, ?_⟩
  · exact (flushLeft_append hs.body.1).2 hs.body.2.head
  · show FlushRight (s.body ++ (t.before ++ (t.words ++ (t.gap ++ t.body))))
    rw [← List.append_assoc, ← List.append_assoc, ← List.append_assoc,
      flushRight_append ht.body.1]
    exact ht.body.2.last
  · show (Scan.start.run (s.body ++ t.text)).atTop = true
    rw [Scan.run_append]
    exact ht.atTop_run (Scan.sound_start.run _) hs.closes

/-- A clause is not seen in a body that goes on to the end of another section,
if it is not that section's and not seen in either body. -/
theorem clear_through {c : Clause} (ht : t.IsWritten) (hbody : Trimmed s.body)
    (hcloses : (Scan.start.run s.body).atTop = true) (hne : c ≠ t.clause)
    (hs : c.Clear s.body)
    (hclear : c.Clear t.body) : c.Clear (s.through t).body := by
  have hall : ∀ s ∈ [t], s.IsWritten := List.forall_mem_singleton.2 ht
  obtain ⟨g, hg, hwritten⟩ := exists_written (g := s.body) hall hcloses
  have htext : s.body ++ texts [t] = (s.through t).body := by
    rw [texts_cons, texts, List.flatMap_nil, List.append_nil]
    rfl
  rw [htext] at hwritten
  refine hwritten.unseen (by rwa [hg, hbody.trim_eq]) ?_ true
  exact List.forall_mem_singleton.2 ⟨hne, hclear⟩

/-! ## Splitting sections

Whether written sections are split depends on where their clauses are placed.
Three arrangements have to be told apart: the order of the grammar, a limit
between a filter and an order, and any other, in which the first clause found is
not the first one there. -/

/-- Sections that stand in the order of the grammar are found where they
stand. -/
theorem split?_of_sublist (h : ∀ s ∈ ss, s.IsProper)
    (horder : (ss.map clause).Sublist selectClauses) :
    Clause.split? selectClauses (trimLeft (texts ss)) =
      some (ss.map entry) := by
  refine Clause.split?_eq_some_iff.2 ⟨[], blanks_nil,
    written_trimLeft fun s hs => (h s hs).toIsWritten, ?_⟩
  refine Clause.placed_of_sublist ?_ (by decide) (fun c _ => c.clear_nil) fun c
    hc p hp => ?_
  · rw [List.map_map]
    exact horder
  · obtain ⟨s, hs, rfl⟩ := List.mem_map.1 hp
    exact (h s hs).clear c hc

/-- A limit between a filter and an order is taken for a part of the filter. -/
theorem split?_of_limit_between (hw : w.IsProper) (hn : n.IsProper)
    (ho : o.IsProper)
    (hclauses : [w.clause, n.clause, o.clause] = [.filter, .limit, .order]) :
    Clause.split? selectClauses (trimLeft (texts [w, n, o])) =
      some [(.filter, w.body ++ n.text), (.order, o.body)] := by
  simp only [List.cons.injEq, and_true] at hclauses
  obtain ⟨hfilter, hlimit, horder⟩ := hclauses
  have htexts : texts [w, n, o] = texts [w.through n, o] := by
    simp only [texts, List.flatMap_cons, text, through, List.append_assoc]
  have hentries :
      [w.through n, o].map entry = [(.filter, w.body ++ n.text),
        (.order, o.body)] := by
    rw [← hfilter, ← horder]
    rfl
  have hwritten : ∀ s ∈ [w.through n, o], s.IsWritten := by
    simp only [List.forall_mem_cons]
    exact ⟨hw.toIsWritten.through hn.toIsWritten, ho.toIsWritten, nofun⟩
  have hclear : Clause.order.Clear (w.body ++ n.text) :=
    clear_through (s := w) hn.toIsWritten hw.body.2 hw.closes
      (by rw [hlimit]; decide)
      (hw.clear _ (by decide)) (hn.clear _ (by decide))
  rw [htexts, ← hentries]
  refine Clause.split?_eq_some_iff.2 ⟨[], blanks_nil, written_trimLeft hwritten,
    ?_⟩
  rw [hentries]
  exact .found (Clause.clear_nil _)
    (.found hclear (.absent (ho.clear _ (by decide)) nofun (.done _)))

/-- The section that is found first must be the first one. -/
theorem split?_of_late {clauses : List Clause} (absent : List Clause)
    (front : List Section) (h : ∀ s ∈ front ++ t :: back, s.IsProper)
    (hall : selectClauses = absent ++ t.clause :: clauses) (hfront : front ≠ [])
    (hlate : t.clause ∉ front.map clause)
    (habsent : ∀ c ∈ absent, c ∉ (front ++ t :: back).map clause) :
    Clause.split? selectClauses (trimLeft (texts (front ++ t :: back))) =
      none := by
  obtain ⟨s, front, rfl⟩ := List.exists_cons_of_ne_nil hfront
  have hwritten := written_trimLeft fun s hs => (h s hs).toIsWritten
  rw [List.map_append] at hwritten
  -- a kind that none of some sections has is seen nowhere in them
  have hentry {c : Clause} {ss : List Section} (hc : c ∈ selectClauses)
      (hss : ∀ s ∈ ss, s.IsProper) (hne : c ∉ ss.map clause) :
      ∀ q ∈ ss.map entry, c ≠ q.1 ∧ c.Clear q.2 := by
    intro q hq
    obtain ⟨s, hs, rfl⟩ := List.mem_map.1 hq
    exact ⟨fun he => hne (List.mem_map.2 ⟨s, hs, he.symm⟩),
      (hss s hs).clear c hc⟩
  have ht : t.clause ∈ selectClauses := by
    rw [hall]
    exact List.mem_append_right _ List.mem_cons_self
  rw [hall]
  refine hwritten.split?_eq_none (fun c => c.clear_nil) (fun c hc => ?_) ?_
  · have hmem : c ∈ selectClauses := by
      rw [hall]
      exact List.mem_append_left _ hc
    have hc' := hentry hmem h (habsent c hc)
    rwa [List.map_append] at hc'
  · exact hentry ht (fun s hs => h s (List.mem_append_left _ hs)) hlate

/-- Two things are in one order or in the other. -/
theorem sublist_pair_or {α : Type} {a b : α} {l : List α}
    (hl : ∀ x ∈ l, x = a ∨ x = b) (hnodup : l.Nodup) :
    l.Sublist [a, b] ∨ l = [b, a] := by
  match l, hl, hnodup with
  | [], _, _ => exact .inl (List.nil_sublist _)
  | [x], hl, _ =>
      rcases hl x List.mem_cons_self with rfl | rfl <;> simp
  | [x, y], hl, hnodup =>
      simp only [List.forall_mem_cons] at hl
      rcases hl.1 with rfl | rfl <;> rcases hl.2.1 with rfl | rfl <;> simp_all
  | x :: y :: z :: l, hl, hnodup =>
      simp only [List.forall_mem_cons] at hl
      rcases hl.1 with rfl | rfl <;> rcases hl.2.1 with rfl | rfl <;>
        rcases hl.2.2.1 with rfl | rfl <;> simp_all

/-- Sections of different kinds stand in the order of the grammar, or they are a
filter, a limit and an order, or the one that is found first comes too late. -/
theorem arrangement_cases (h : ∀ s ∈ ss, s.IsProper)
    (hnodup : (ss.map clause).Nodup) :
    (ss.map clause).Sublist selectClauses ∨
      ss.map clause = [.filter, .limit, .order] ∨
      Clause.split? selectClauses (trimLeft (texts ss)) = none := by
  have hall : ∀ c ∈ ss.map clause, c = .filter ∨ c = .order ∨ c = .limit := by
    intro c hc
    obtain ⟨s, hs, rfl⟩ := List.mem_map.1 hc
    have hshaped := (h s hs).shaped
    revert hshaped
    cases s.clause <;> simp [IsShaped]
  by_cases hfilter : Clause.filter ∈ ss.map clause
  · obtain ⟨t, ht, hclause⟩ := List.mem_map.1 hfilter
    obtain ⟨front, back, rfl⟩ := List.append_of_mem ht
    rw [List.map_append, List.map_cons, hclause] at hnodup hall ⊢
    cases front with
    | nil =>
        simp only [List.map_nil, List.nil_append, List.nodup_cons,
          List.forall_mem_cons] at hnodup hall ⊢
        have hback : ∀ c ∈ back.map clause, c = .order ∨ c = .limit :=
          fun c hc => (hall.2 c hc).resolve_left fun he => hnodup.1 (he ▸ hc)
        rcases sublist_pair_or hback hnodup.2 with hsub | heq
        · exact .inl (hsub.cons_cons _)
        · exact .inr (.inl (by rw [heq]))
    | cons s front =>
        refine .inr
          (.inr (split?_of_late [] (s :: front) h (by rw [hclause]; rfl)
          (List.cons_ne_nil _ _) ?_ nofun))
        rw [hclause]
        exact fun hmem =>
          (List.nodup_append.1 hnodup).2.2 _ hmem _ List.mem_cons_self rfl
  · have hrest : ∀ c ∈ ss.map clause, c = .order ∨ c = .limit :=
      fun c hc => (hall c hc).resolve_left fun he => hfilter (he ▸ hc)
    rcases sublist_pair_or hrest hnodup with hsub | heq
    · exact .inl (hsub.cons _)
    · -- the order is found first, and the limit stands before it
      obtain ⟨n, ss', rfl, hn, hss'⟩ := List.map_eq_cons_iff.1 heq
      obtain ⟨o, ss'', rfl, ho, hss''⟩ := List.map_eq_cons_iff.1 hss'
      refine .inr (.inr (split?_of_late [.filter] [n] h (by rw [ho]; rfl)
        (List.cons_ne_nil _ _) ?_ ?_))
      · rw [ho, List.map_singleton, hn]
        decide
      · exact List.forall_mem_singleton.2 hfilter

end Section

/-! ## A whole SELECT

What stands before the clauses is read in any case, since the first word FROM
ends the columns and no join begins with the word of a clause. So what becomes
of the text is what becomes of its sections. -/

/-- A SELECT from one table as it may be written. What stands between the words
SELECT and FROM is its list, with the blanks around it. -/
structure Layout where
  word : Text
  list : Text
  source : Text
  gap : Text
  table : Text
  sections : List Section

namespace Layout

variable {l : Layout} {t : Text} {bs : List (Clause × Text)}

def text (l : Layout) : Text :=
  l.word ++
    (l.list ++ (l.source ++ (l.gap ++ (l.table ++ Section.texts l.sections))))

def columns (l : Layout) : List Text :=
  (l.list.splitOn (.char ',')).map trim

def clauses (l : Layout) : List Clause :=
  l.sections.map Section.clause

def bodies (l : Layout) : List (Clause × Text) :=
  l.sections.map Section.entry

/-- Each part of a SELECT is well formed, and each kind of clause is there once
at most. -/
structure IsProper (l : Layout) : Prop where
  word : Spells Kind.select.word l.word
  starts : l.list ≠ [] ∧ Bounded l.list
  ends : Clause.freeAfter true l.list = true
  closes : (Scan.start.run l.list).atTop = true
  clear : Clause.source.Clear (trim l.list)
  columns : [] ∉ l.columns
  source : Clause.source.Spelled l.source
  gap : l.gap ≠ [] ∧ Blanks l.gap
  table : IsName l.table
  sections : ∀ s ∈ l.sections, s.IsProper
  nodup : l.clauses.Nodup

/-- A SELECT says what a layout says, with these bodies under its clauses. -/
structure Says (l : Layout) (bodies : List (Clause × Text)) (s : Select) :
    Prop where
  table : s.table = l.table
  columns : s.columns = l.columns
  joins : s.joins = []
  filter : s.filter = bodies.lookup .filter
  order : Option.Rel Orders (bodies.lookup .order) s.order
  limit :
      Option.Rel (fun body z => ∃ n, Digits body n ∧ z = Int.ofNat n)
        (bodies.lookup .limit) s.limit

theorem joinOpening?_of_sections {c : Cursor} {ss : List Section}
    (h : ∀ s ∈ ss, s.IsWritten) (hc : c.rest = Section.texts ss) :
    joinOpening? c = none := by
  cases ss with
  | nil =>
      exact joinOpening?_of_word (x := []) (u := []) (by rw [hc]; rfl) nofun
        bounded_nil (by decide)
  | cons s ss =>
      have hs := h s List.mem_cons_self
      obtain ⟨x, y, hx, hy, hwords⟩ := hs.words
      have hrest :
          trimLeft c.rest =
            x ++ (y ++ (s.gap ++ (s.body ++ Section.texts ss))) := by
        rw [hc, Section.texts_cons, Section.text, List.append_assoc,
          trimLeft_append_blanks hs.before.2, List.append_assoc,
          (hs.words.flushLeft _).trimLeft_eq, hwords]
        simp only [List.append_assoc]
      have hkeyword := s.clause.isKeyword_firstWord
      refine joinOpening?_of_word hrest
        (fun a ha => hkeyword.isWord_of_mem hx ha)
        (hy.bounded (hs.bounded_gap _)) fun hmem => ?_
      have hupper := hkeyword.spells_upper hx
      have hnone : ∀ w ∈ ["JOIN".toText, "INNER".toText, "LEFT".toText],
          ¬ Spells s.clause.firstWord w := by
        cases s.clause <;> decide
      exact hnone _ hmem hupper

theorem IsProper.readSelect_text (h : l.IsProper) :
    readSelect l.text =
      (do
        let clauses ← required
            (Clause.split? selectClauses (trimLeft (Section.texts l.sections)))
        let order ← readClause clauses .order fun body =>
          required (readOrder? body)
        let limit ← readClause clauses .limit readLimit
        return { table := l.table, columns := l.columns,
                 filter := clauses.lookup .filter, order,
                 limit := limit.map Int.ofNat, joins := [] }) := by
  have hsections := fun s hs => (h.sections s hs).toIsWritten
  have htexts := Section.bounded_texts hsections
  have hdrop : l.text.drop Kind.select.word.length =
      l.list ++
        (l.source ++ (l.gap ++ (l.table ++ Section.texts l.sections))) :=
    List.drop_left' h.word.length_eq
  have hr : Bounded (l.gap ++ (l.table ++ Section.texts l.sections)) :=
    h.gap.2.bounded h.gap.1
  have hunseen := h.clear.unseen (h.source.behind h.ends
    (l.gap ++ (l.table ++ Section.texts l.sections))) true
  have hcolumns : readColumns? l.list = some l.columns :=
    readColumns?_eq_some_iff.2 ⟨rfl, h.columns⟩
  have htable : trimLeft (l.gap ++ (l.table ++ Section.texts l.sections)) =
      l.table ++ (Join.text [] ++ Section.texts l.sections) := by
    rw [trimLeft_append_blanks h.gap.2]
    exact ((flushLeft_append h.table.ne_nil).2 h.table.trimmed.head).trimLeft_eq
  exact readSelect_of_parts hdrop hunseen h.closes h.ends h.source.ne_nil
    (h.source.after? hr)
    hcolumns htable h.table nofun htexts htexts fun c hc =>
      joinOpening?_of_sections hsections hc

theorem IsProper.parse_eq (h : l.IsProper) (ht : bare t = l.text) :
    parse t =
      (readAs .select l.text).mapError
        (Fault.toError Kind.select.word l.text) := by
  have hkeyword : IsKeyword Kind.select.word := by decide
  have hword : leadingWord l.text = Kind.select.word := by
    rw [text, leadingWord_append fun c hc => hkeyword.isBlank_of_mem h.word hc]
    · exact hkeyword.upper_eq h.word (by decide)
    · obtain ⟨c, r, hlist⟩ := List.exists_cons_of_ne_nil h.starts.1
      have hb := h.starts.2
      rw [hlist] at hb ⊢
      exact bounded_cons.2 (bounded_cons.1 hb)
  have hne : l.text ≠ [] :=
    List.append_ne_nil_of_left_ne_nil (hkeyword.spelling_ne_nil h.word) _
  rw [parse_of_leadingWord .select (by rwa [ht]) (by rwa [ht]), ht]

theorem exists_readClause {α : Type} {clause : Clause}
    {read : Text → Except Fault α} {R : Text → α → Prop}
    (h : ∀ body, bs.lookup clause = some body →
      ∃ a, read body = .ok a ∧ R body a) :
    ∃ o, readClause bs clause read = .ok o ∧ Option.Rel R
    (bs.lookup clause) o := by
  rw [readClause]
  cases hlookup : bs.lookup clause with
  | none => exact ⟨none, rfl, .none⟩
  | some body =>
      obtain ⟨a, ha, hR⟩ := h body hlookup
      exact ⟨some a, congrArg (Except.map some) ha, .some hR⟩

theorem exists_order (hshaped : ∀ p ∈ bs, Section.IsShaped p.1 p.2) :
    ∃ o, (readClause bs .order fun body => required (readOrder? body)) = .ok o ∧
    Option.Rel Orders (bs.lookup .order) o := by
  refine exists_readClause fun body hbody => ?_
  have hmem := mem_of_lookup_eq_some hbody
  obtain ⟨o, ho⟩ := hshaped _ hmem
  exact ⟨o, by rw [ho.readOrder?_eq]; rfl, ho⟩

section

variable (h : l.IsProper) (ht : bare t = l.text)
  (hsplit : Clause.split? selectClauses (trimLeft (Section.texts l.sections)) =
    some bs) (hshaped : ∀ p ∈ bs, Section.IsShaped p.1 p.2)

include h ht hsplit hshaped

/-- The clauses that a layout is split into are what it says. -/
theorem exists_select
    (hlimit : ∀ body, bs.lookup .limit = some body → body.length ≤ digitLimit) :
    ∃ s, parse t = .ok (.select s) ∧ l.Says bs s := by
  obtain ⟨o, ho, hrel⟩ := exists_order hshaped
  obtain ⟨n, hn, hcount⟩ : ∃ n, readClause bs .limit readLimit = .ok n ∧
      Option.Rel Digits (bs.lookup .limit) n := by
    refine exists_readClause fun body hbody => ?_
    obtain ⟨n, hn⟩ := hshaped _ (mem_of_lookup_eq_some hbody)
    exact ⟨n, readLimit_eq_ok_iff.2 ⟨hn, hlimit body hbody⟩, hn⟩
  have hread : readSelect l.text =
      .ok ⟨l.table, l.columns, bs.lookup .filter, o, n.map Int.ofNat, []⟩ := by
    rw [h.readSelect_text, hsplit]
    have hrequired : required (some bs) = .ok bs := rfl
    simp only [hrequired, bind, Except.bind, pure, Except.pure, ho, hn]
  have hlimit :
      Option.Rel (fun body z => ∃ n, Digits body n ∧ z = Int.ofNat n)
        (bs.lookup .limit)
        (n.map Int.ofNat) := by
    generalize bs.lookup .limit = body at hcount
    cases hcount with
    | none => exact .none
    | some hd => exact .some ⟨_, hd, rfl⟩
  refine ⟨⟨l.table, l.columns, bs.lookup .filter, o, n.map Int.ofNat, []⟩, ?_,
    ⟨rfl, rfl, rfl, rfl, hrel, hlimit⟩⟩
  rw [h.parse_eq ht, readAs, hread]
  rfl

theorem parse_eq_limitTooLong {body : Text}
    (hbody : bs.lookup .limit = some body) (hlong : digitLimit < body.length) :
    parse t = .error (.limitTooLong body.length) := by
  obtain ⟨o, ho, _⟩ := exists_order hshaped
  have hlimit :
      readClause bs .limit readLimit = .error (.limitTooLong body.length) := by
    rw [readClause, hbody]
    exact congrArg (Except.map some) (readLimit_eq_limitTooLong_iff.2
      ⟨hshaped _ (mem_of_lookup_eq_some hbody), hlong, rfl⟩)
  have hread : readSelect l.text = .error (.limitTooLong body.length) := by
    rw [h.readSelect_text, hsplit]
    have hrequired : required (some bs) = .ok bs := rfl
    simp only [hrequired, bind, Except.bind, ho, hlimit]
  rw [h.parse_eq ht, readAs, hread]
  rfl

end

theorem IsProper.parse_eq_malformed (h : l.IsProper) (ht : bare t = l.text)
    (hsplit : Clause.split? selectClauses
      (trimLeft (Section.texts l.sections)) = none) :
    parse t = .error (.malformed Kind.select.word (bare t)) := by
  have hread : readSelect l.text = .error .shape := by
    rw [h.readSelect_text, hsplit]
    rfl
  rw [h.parse_eq ht, readAs, hread, ht]
  rfl

/-- In the order of the grammar every body is read under its own clause, and a
limit with too many digits is the only fault. A limit between a filter and an
order is a part of the filter. Any other arrangement is malformed. -/
theorem parse_arranged (h : l.IsProper) (ht : bare t = l.text) :
    (l.clauses.Sublist selectClauses →
      ((∀ body, l.bodies.lookup .limit = some body → body.length ≤ digitLimit) →
        ∃ s, parse t = .ok (.select s) ∧ l.Says l.bodies s) ∧
      ∀ body, l.bodies.lookup .limit = some body → digitLimit < body.length →
        parse t = .error (.limitTooLong body.length)) ∧
    (∀ w n o, l.sections = [w, n, o] → l.clauses = [.filter, .limit, .order] →
      ∃ s, parse t = .ok (.select s) ∧
        l.Says [(.filter, w.body ++ n.text), (.order, o.body)] s) ∧
    (¬ l.clauses.Sublist selectClauses → l.clauses ≠ [.filter, .limit, .order] →
      parse t = .error (.malformed Kind.select.word (bare t))) := by
  refine ⟨fun horder => ?_, fun w n o hsections hclauses => ?_,
    fun horder hclauses => ?_⟩
  · have hsplit := Section.split?_of_sublist h.sections horder
    have hshaped : ∀ p ∈ l.bodies, Section.IsShaped p.1 p.2 := by
      intro p hp
      obtain ⟨s, hs, rfl⟩ := List.mem_map.1 hp
      exact (h.sections s hs).shaped
    exact ⟨exists_select h ht hsplit hshaped,
      fun body => parse_eq_limitTooLong h ht hsplit hshaped⟩
  · have hproper := h.sections
    rw [clauses, hsections] at hclauses
    rw [hsections] at hproper
    simp only [List.forall_mem_cons] at hproper
    obtain ⟨hw, hn, ho, -⟩ := hproper
    have hsplit := Section.split?_of_limit_between hw hn ho hclauses
    rw [← hsections] at hsplit
    have hbody := (hw.toIsWritten.through hn.toIsWritten).body
    have horder : o.clause = .order := by
      simp only [List.map_cons, List.cons.injEq] at hclauses
      exact hclauses.2.2.1
    have hshaped : ∀ p ∈ [(Clause.filter, w.body ++ n.text), (.order, o.body)],
        Section.IsShaped p.1 p.2 := by
      simp only [List.forall_mem_cons]
      exact ⟨⟨hbody.1, hbody.2⟩, horder ▸ ho.shaped, nofun⟩
    exact exists_select h ht hsplit hshaped nofun
  · rcases Section.arrangement_cases h.sections h.nodup with hsub | heq | hnone
    · exact absurd hsub horder
    · exact absurd heq hclauses
    · exact h.parse_eq_malformed ht hnone

/-- A limit that stands between a filter and an order. -/
def limitBetween : Layout where
  word := "SELECT".toText
  list := " * ".toText
  source := "FROM".toText
  gap := [.char ' ']
  table := "t".toText
  sections :=
    [⟨.filter, [.char ' '], "WHERE".toText, [.char ' '], "a = 1".toText⟩,
      ⟨.limit, [.char ' '], "LIMIT".toText, [.char ' '], "5".toText⟩,
      ⟨.order, [.char ' '], "ORDER BY".toText, [.char ' '], "b".toText⟩]

theorem isProper_limitBetween : limitBetween.IsProper := by
  have hblank : [CodePoint.char ' '] ≠ [] ∧ Blanks [.char ' '] :=
    ⟨nofun, blanks_space⟩
  refine ⟨spells_self _, ⟨nofun, bounded_cons.2 (by decide)⟩,
    by decide, by decide, by decide, by decide, Clause.source.spelled_words,
    hblank, ⟨nofun, by decide⟩, ?_, by decide⟩
  have hfilter : (limitBetween.sections[0]).IsProper :=
    ⟨⟨hblank, Clause.filter.spelled_words, hblank, ⟨nofun, by decide⟩,
      by decide⟩, ⟨nofun, by decide⟩, by decide⟩
  have hlimit : (limitBetween.sections[1]).IsProper :=
    ⟨⟨hblank, Clause.limit.spelled_words, hblank, ⟨nofun, by decide⟩,
      by decide⟩, ⟨5, [5], by decide, rfl, rfl⟩, by decide⟩
  have horder : (limitBetween.sections[2]).IsProper :=
    ⟨⟨hblank, Clause.order.spelled_words, hblank, ⟨nofun, by decide⟩,
      by decide⟩, ⟨("b".toText, .ascending), .field ⟨nofun, by decide⟩⟩,
      by decide⟩
  simp only [limitBetween, List.forall_mem_cons]
  exact ⟨hfilter, hlimit, horder, nofun⟩

theorem bare_limitBetween :
    bare "SELECT * FROM t WHERE a = 1 LIMIT 5 ORDER BY b".toText =
      limitBetween.text := by
  have htext : limitBetween.text =
      Kind.select.word ++
        (" * FROM t WHERE a = 1 LIMIT 5 ORDER BY ".toText ++ [.char 'b']) := by
    cbv
  have hsql : "SELECT * FROM t WHERE a = 1 LIMIT 5 ORDER BY b".toText =
      Kind.select.word ++
        (" * FROM t WHERE a = 1 LIMIT 5 ORDER BY ".toText ++ [.char 'b']) := by
    cbv
  rw [htext, hsql]
  exact (isBare_append (by decide) (by decide)).bare_eq

theorem parse_arranged_limitBetween :
    limitBetween.IsProper ∧
      bare "SELECT * FROM t WHERE a = 1 LIMIT 5 ORDER BY b".toText =
        limitBetween.text ∧
      ∃ s, parse "SELECT * FROM t WHERE a = 1 LIMIT 5 ORDER BY b".toText =
        .ok (.select s) ∧
        limitBetween.Says [(.filter, "a = 1".toText ++ " LIMIT 5".toText),
          (.order, "b".toText)] s :=
  ⟨isProper_limitBetween, bare_limitBetween,
    (parse_arranged isProper_limitBetween bare_limitBetween).2.1 _ _ _ rfl rfl⟩

/-- It is read, although the limit is out of order, and nothing is limited. -/
theorem parse_limitBetween :
    limitBetween.IsProper ∧ ¬ limitBetween.clauses.Sublist selectClauses ∧
      parse "SELECT * FROM t WHERE a = 1 LIMIT 5 ORDER BY b".toText =
        .ok (.select ⟨"t".toText, [[.char '*']], some "a = 1 LIMIT 5".toText,
          some ("b".toText, .ascending), none, []⟩) := by
  refine ⟨isProper_limitBetween, by decide, ?_⟩
  have hsplit :
      Clause.split? selectClauses
        (trimLeft (Section.texts limitBetween.sections)) =
        some [(.filter, "a = 1 LIMIT 5".toText), (.order, "b".toText)] := by
    have hproper := isProper_limitBetween.sections
    simp only [limitBetween, List.forall_mem_cons] at hproper
    exact Section.split?_of_limit_between hproper.1 hproper.2.1
      hproper.2.2.1 rfl
  rw [isProper_limitBetween.parse_eq bare_limitBetween, readAs,
    isProper_limitBetween.readSelect_text, hsplit]
  rfl

end Layout

end RowSql
