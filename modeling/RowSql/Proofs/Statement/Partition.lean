import RowSql.Proofs.Statement.Occurrence
import RowSql.Proofs.Statement.Splitting

/-!
# A text and its clauses

Clauses are looked for one after the other, each behind the words of the one
found before, so their places follow each other in the order that was asked for.
When a text is split, these places, the bodies between them and the blanks
around the bodies lie end to end from the first clause to the end of the text,
and nothing but blanks is before them.

Tiling decides the split. Places that tile the text with some bodies are places
with these bodies, and a text whose places leave a gap before the first clause,
or have no body between two of them, is not split at all.
-/

namespace RowSql.Clause

open Text

/-- Places found by looking for clauses in order, each from the end of the one
found before. -/
inductive Sought (t : Text) : List Clause → Nat → List Span → Prop
  | done (pos : Nat) : Sought t [] pos []
  | absent {clause : Clause} {clauses : List Clause} {pos : Nat}
      {found : List Span}
      (h : ∀ start stop, pos ≤ start → ¬ clause.StandsAt t start stop)
      (hrest : Sought t clauses pos found) :
        Sought t (clause :: clauses) pos found
  | found {clause : Clause} {clauses : List Clause} {pos start stop : Nat}
      {found : List Span}
      (h : clause.IsFirst t pos start stop)
        (hrest : Sought t clauses stop found) :
      Sought t (clause :: clauses) pos (⟨clause, start, stop⟩ :: found)

/-- A text behind a position is the words at the first place, the first body
with blanks on either side, and so on with the places and bodies that follow. -/
inductive Tiles : Nat → List Span → List (Clause × Text) → Text → Prop
  | nil (pos : Nat) : Tiles pos [] [] []
  | cons {clause : Clause} {pos : Nat} {x l b r u : Text} {found : List Span}
      {bodies : List (Clause × Text)} (hx : clause.Spelled x) (hl : Blanks l)
        (hne : b ≠ [])
      (hb : Trimmed b) (hr : Blanks r)
      (hrest : Tiles (pos + (x ++ (l ++ (b ++ r))).length) found bodies u) :
      Tiles pos (⟨clause, pos, pos + x.length⟩ :: found) ((clause, b) :: bodies)
        (x ++ (l ++ (b ++ r)) ++ u)

/-- A text is split at places into bodies. If no clause is looked for twice,
each body is the one that its clause has. -/
structure IsPartition (clauses : List Clause) (t : Text) (found : List Span)
    (bodies : List (Clause × Text)) : Prop where
  sought : Sought t clauses 0 found
  ordered : (found.map Span.clause).Sublist clauses
  disjoint : found.Pairwise fun a b => a.stop ≤ b.start
  tiled : ∃ lead u, t = lead ++ u ∧ Blanks lead ∧
    Tiles lead.length found bodies u
  lookup : clauses.Nodup → ∀ p ∈ bodies, bodies.lookup p.1 = some p.2

variable {clause : Clause} {clauses : List Clause} {g s t u : Text} {pos : Nat}
  {found : List Span} {bodies : List (Clause × Text)}

/-! ## The places

Each search begins behind the words that were found before, so the places are in
order and do not overlap. -/

theorem sought_spans (t : Text) (clauses : List Clause) (pos : Nat) :
    Sought t clauses pos (spans t clauses pos) := by
  induction clauses generalizing pos with
  | nil => exact .done pos
  | cons clause clauses ih =>
      have hfinds := finds_find? clause t pos
      rw [spans]
      generalize clause.find? t pos = o at hfinds
      cases hfinds with
      | @first start stop h => exact .found h (ih stop)
      | nowhere h => exact .absent h (ih pos)

namespace Sought

theorem sublist (h : Sought t clauses pos found) :
    (found.map Span.clause).Sublist clauses := by
  induction h with
  | done => exact List.Sublist.refl []
  | absent _ _ ih => exact ih.cons _
  | found _ _ ih => exact ih.cons_cons _

theorem pos_le (h : Sought t clauses pos found) :
    ∀ a ∈ found, pos ≤ a.start := by
  induction h with
  | done => exact fun a ha => absurd ha List.not_mem_nil
  | absent _ _ ih => exact ih
  | @found clause clauses pos start stop found hfirst _ ih =>
      refine List.forall_mem_cons.2 ⟨hfirst.pos_le, fun a ha => ?_⟩
      have hpos := hfirst.pos_le
      have hlt := hfirst.stands.lt
      have hstop := ih a ha
      omega

theorem pairwise (h : Sought t clauses pos found) :
    found.Pairwise fun a b => a.stop ≤ b.start := by
  induction h with
  | done => exact .nil
  | absent _ _ ih => exact ih
  | found _ hrest ih => exact List.pairwise_cons.2 ⟨hrest.pos_le, ih⟩

end Sought

/-! ## The tiling

Bodies and places that lie end to end are what the splitter answers, and what it
answers lies end to end. In one statement with the search this says when a text
is split, and into what. -/

/-- Places that lie end to end with bodies have these bodies. -/
theorem Tiles.bodies?_eq (h : Tiles pos found bodies u) (hg : pos = g.length) :
    boundary (g ++ u) found = g.length ∧
    bodies? (g ++ u) found = some bodies := by
  induction h generalizing g with
  | nil pos =>
      rw [List.append_nil]
      exact ⟨rfl, rfl⟩
  | @cons clause pos x l b r u found bodies hx hl hne hb hr _ ih =>
      subst hg
      have hsplit :
          g ++ (x ++ (l ++ (b ++ r)) ++ u) =
            g ++ x ++ (l ++ (b ++ r)) ++ u := by
        simp only [List.append_assoc]
      have hend :
          g.length + (x ++ (l ++ (b ++ r))).length =
            (g ++ x ++ (l ++ (b ++ r))).length := by
        simp only [List.length_append, Nat.add_assoc]
      have hbody : trim (((g ++ x ++ (l ++ (b ++ r)) ++ u).take
          (g ++ x ++ (l ++ (b ++ r))).length).drop (g ++ x).length) = b := by
        rw [List.take_left, List.drop_left, ← List.append_assoc,
          trim_blanks_append hl hr, hb.trim_eq]
      obtain ⟨hboundary, hbodies⟩ := ih hend
      obtain ⟨c, v, rfl⟩ := List.exists_cons_of_ne_nil hne
      rw [hsplit, ← List.length_append]
      refine ⟨by rw [boundary], ?_⟩
      simp only [bodies?, hboundary, hbody, hbodies]

theorem Tiles.map_clause (h : Tiles pos found bodies u) :
    bodies.map Prod.fst = found.map Span.clause := by
  induction h with
  | nil => rfl
  | cons _ _ _ _ _ _ ih => rw [List.map_cons, List.map_cons, ih]

/-- A body is found by its clause where no clause has two. -/
theorem lookup_of_mem (h : (bodies.map Prod.fst).Nodup) :
    ∀ p ∈ bodies, bodies.lookup p.1 = some p.2 := by
  induction bodies with
  | nil => exact fun p hp => absurd hp List.not_mem_nil
  | cons q bodies ih =>
      rw [List.map_cons, List.nodup_cons] at h
      obtain ⟨hq, hnodup⟩ := h
      refine List.forall_mem_cons.2 ⟨List.lookup_cons_self, fun p hp => ?_⟩
      have hne : p.1 ≠ q.1 := fun heq => hq (heq ▸ List.mem_map_of_mem hp)
      rw [List.lookup_cons, beq_eq_false_iff_ne.2 hne]
      exact ih hnodup p hp

/-- What a text is laid out as is a tiling of it. -/
theorem Laid.tiles (h : Laid clauses s u g bodies) :
    ∃ v, u = g ++ v ∧
      Tiles (s ++ g).length (Clause.spans (s ++ u) clauses s.length)
          bodies v := by
  induction h with
  | done s g => exact ⟨[], (List.append_nil g).symm, .nil _⟩
  | absent h _ ih =>
      rw [Clause.spans, find?_eq_none_of_unseen h]
      exact ih
  | @found clause clauses s g x r b bodies h htop hfree hne hafter hb _ ih =>
      obtain ⟨v, rfl, htiles⟩ := ih
      obtain ⟨x', hx, heq, _⟩ := after?_eq_some_iff.1 hafter
      obtain rfl := List.append_cancel_right heq
      obtain ⟨l, l', hl, hl', hbody⟩ := exists_eq_trim b
      have hsplit : s ++ (g ++ (x ++ (b ++ v))) = s ++ g ++ x ++ (b ++ v) := by
        simp only [List.append_assoc]
      have hend :
          (s ++ g).length + (x ++ (l ++ (trim b ++ l'))).length =
            (s ++ g ++ x ++ b).length := by
        rw [← hbody, List.append_assoc (s ++ g), ← List.length_append]
      rw [Clause.spans, find?_eq_some_of_unseen h htop hfree hne hafter, hsplit]
      refine ⟨x ++ (l ++ (trim b ++ l')) ++ v,
        by rw [← hbody, List.append_assoc x], ?_⟩
      have htile := Tiles.cons hx hl hb (trimmed_trim b) hl' (hend ▸ htiles)
      rwa [← List.length_append] at htile

/-- A text is split exactly when the places that are found tile it behind
blanks. -/
theorem split?_eq_some_iff_tiles : split? clauses t = some bodies ↔
    ∃ lead u, t = lead ++ u ∧ Blanks lead ∧
      Tiles lead.length (spans t clauses 0) bodies u := by
  constructor
  · intro h
    obtain ⟨lead, hlead, hwritten, hplaced⟩ := split?_eq_some_iff.1 h
    have hlaid : Laid clauses [] t lead bodies :=
      hplaced.laid (trim_eq_nil_iff.2 hlead) hwritten rfl (.inl rfl)
    obtain ⟨u, ht, htiles⟩ := hlaid.tiles
    exact ⟨lead, u, ht, hlead, htiles⟩
  · rintro ⟨lead, u, ht, hlead, htiles⟩
    obtain ⟨hboundary, hbodies⟩ := htiles.bodies?_eq (g := lead) rfl
    rw [← ht] at hboundary hbodies
    have hblank : trim (t.take (boundary t (spans t clauses 0))) = [] := by
      rw [hboundary, ht, List.take_left, trim_eq_nil_iff]
      exact hlead
    rw [split?]
    simp only [hblank, hbodies, if_true]

theorem split?_eq_some_iff_isPartition :
    split? clauses t = some bodies ↔
      IsPartition clauses t (spans t clauses 0) bodies := by
  have hsought := sought_spans t clauses 0
  rw [split?_eq_some_iff_tiles]
  refine ⟨fun h => ?_, fun h => h.tiled⟩
  refine ⟨hsought, hsought.sublist, hsought.pairwise, h, fun hnodup => ?_⟩
  obtain ⟨_, _, _, _, htiles⟩ := h
  refine lookup_of_mem ?_
  rw [htiles.map_clause]
  exact hsought.sublist.nodup hnodup

/-- A search gives the first place where the words of a clause stand alone,
outside of quotes and parentheses, and gives none exactly when there is none.
The places that are found one behind the other are where a text is split, which
succeeds exactly when they tile it behind blanks. -/
theorem first_places_and_partition (t : Text) :
    (∀ (clause : Clause) (pos : Nat),
      (∀ start stop, clause.find? t pos = some (start, stop) ↔
        clause.IsFirst t pos start stop) ∧
      (clause.find? t pos = none ↔ ∀ start stop, pos ≤ start →
        ¬ clause.StandsAt t start stop)) ∧
    ∀ clauses bodies,
      split? clauses t = some bodies ↔
        IsPartition clauses t (spans t clauses 0) bodies := by
  refine ⟨fun clause pos => ⟨fun start stop => ?_, ?_⟩,
    fun clauses bodies => ?_⟩
  · exact find?_eq_some_iff
  · exact find?_eq_none_iff
  · exact split?_eq_some_iff_isPartition

/-- One limit within parentheses, one behind an escaped quote, and none that
counts. -/
def hiddenLimit : Text :=
  "where (a limit) = \"x\\\" LIMIT\" Order \t BY b".toText

theorem first_places_and_partition_hiddenLimit :
    (∀ start stop, ¬ Clause.limit.StandsAt hiddenLimit start stop) ∧
    Clause.order.IsFirst hiddenLimit 1 30 40 ∧
    IsPartition [.filter, .order, .limit] hiddenLimit
      [⟨.filter, 0, 5⟩, ⟨.order, 30, 40⟩]
      [(.filter, "(a limit) = \"x\\\" LIMIT\"".toText),
        (.order, "b".toText)] := by
  obtain ⟨hfind, hsplit⟩ := first_places_and_partition hiddenLimit
  have hspans : spans hiddenLimit [.filter, .order, .limit] 0 =
      [⟨.filter, 0, 5⟩, ⟨.order, 30, 40⟩] := by decide +kernel
  refine ⟨fun start stop => ?_, ?_, ?_⟩
  · exact (hfind .limit 0).2.1 (by decide +kernel) start stop
      (Nat.zero_le start)
  · exact ((hfind .order 1).1 30 40).1 (by decide +kernel)
  · rw [← hspans]
    exact (hsplit [.filter, .order, .limit] _).1 (by decide +kernel)

end RowSql.Clause
