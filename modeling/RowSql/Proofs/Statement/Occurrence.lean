import RowSql.Proofs.Statement.Search
import RowSql.Proofs.Text.Outside

/-!
# Where clauses stand

A place where the words of a clause stand alone is told by the text and nothing
else: what is between its ends spells the words, a blank or an end of the text
is on either side, and the text before it ends outside of quotes and of
parentheses. From where the search was started makes no difference to that,
since it is always the whole text before the place that counts.

The search goes over the text a character at a time. What it has come to know of
the part behind it is whether words may stand here, so each step either finds
them or leaves out one place where none stand.
-/

namespace RowSql.Clause

open Text

/-- The words of a clause stand alone between two places of a text, outside of
quotes and of parentheses. -/
structure StandsAt (clause : Clause) (t : Text) (start stop : Nat) : Prop where
  stop_le : stop ≤ t.length
  spelled : clause.Spelled (t.extract start stop)
  outside : EndsOutside 0 (t.take start)
  before : ∀ s c, t.take start = s ++ [c] → isBlank c = true
  behind : Bounded (t.drop stop)

/-- The first place of a clause's words that does not begin before a
position. -/
structure IsFirst (clause : Clause) (t : Text) (pos start stop : Nat) :
    Prop where
  pos_le : pos ≤ start
  stands : clause.StandsAt t start stop
  least : ∀ start' stop', pos ≤ start' → clause.StandsAt t start' stop' →
    start ≤ start'

variable {clause : Clause} {g r s t u x : Text} {pos start stop : Nat}

/-! ## A text taken apart at a place

A place and the words in it are given by positions, and the scan by the text
before it. Taking the text apart there turns the one into the other. -/

theorem freeAfter_eq_true_iff :
    freeAfter true g = true ↔ ∀ s c, g = s ++ [c] → isBlank c = true := by
  rcases List.eq_nil_or_concat g with rfl | ⟨s, c, rfl⟩
  · exact ⟨fun _ s c h => by simp at h, fun _ => rfl⟩
  · rw [List.concat_eq_append]
    constructor
    · intro h s' c' heq
      rw [freeAfter, List.foldl_append] at h
      rwa [← (List.append_singleton_inj.1 heq).2]
    · exact fun h => freeAfter_concat (h s c rfl)

theorem take_append_extract_append_drop (h : start ≤ stop) (t : Text) :
    t.take start ++ (t.extract start stop ++ t.drop stop) = t := by
  have hdrop : t.drop stop = (t.drop start).drop (stop - start) := by
    rw [List.drop_drop, Nat.add_sub_cancel' h]
  rw [List.extract_eq_take_drop, hdrop, List.take_append_drop,
    List.take_append_drop]

theorem extract_append (g x r : Text) :
    (g ++ (x ++ r)).extract g.length (g ++ x).length = x := by
  rw [List.extract_eq_take_drop, List.drop_left, List.length_append,
    Nat.add_sub_cancel_left, List.take_left]

theorem StandsAt.lt (h : clause.StandsAt t start stop) : start < stop := by
  have hpos := List.length_pos_iff.2 h.spelled.ne_nil
  rw [List.extract_eq_take_drop, List.length_take] at hpos
  omega

/-- What is before the words, the words, and what is behind them. -/
theorem standsAt_iff : clause.StandsAt t start stop ↔
    ∃ g x r, t = g ++ (x ++ r) ∧ start = g.length ∧ stop = (g ++ x).length ∧
      clause.Spelled x ∧
      (Scan.start.run g).atTop = true ∧ freeAfter true g = true ∧
      Bounded r := by
  constructor
  · intro h
    have hlt := h.lt
    have hle := h.stop_le
    refine ⟨t.take start, t.extract start stop, t.drop stop, ?_, ?_, ?_,
      h.spelled, endsOutside_zero_iff.1 h.outside,
      freeAfter_eq_true_iff.2 h.before, h.behind⟩
    · rw [take_append_extract_append_drop (Nat.le_of_lt hlt)]
    · rw [List.length_take]
      omega
    · rw [List.length_append, List.extract_eq_take_drop, List.length_take,
        List.length_take, List.length_drop]
      omega
  · rintro ⟨g, x, r, rfl, rfl, rfl, hx, htop, hfree, hr⟩
    have htake : (g ++ (x ++ r)).take g.length = g := List.take_left
    refine ⟨?_, ?_, ?_, ?_, ?_⟩
    · simp
    · rwa [extract_append]
    · rwa [htake, endsOutside_zero_iff]
    · rwa [htake, ← freeAfter_eq_true_iff]
    · rwa [← List.append_assoc, List.drop_left]

/-- Behind a part of a text, what stands there is known from the rest and the
scan of the part. -/
theorem standsAt_append_iff : clause.StandsAt (g ++ u) g.length stop ↔
    (Scan.start.run g).atTop = true ∧ freeAfter true g = true ∧
      ∃ r, clause.after? u = some r ∧
        stop = g.length + (u.length - r.length) := by
  rw [standsAt_iff]
  constructor
  · rintro ⟨g', x, r, heq, hlength, rfl, hx, htop, hfree, hr⟩
    obtain ⟨rfl, rfl⟩ := List.append_inj heq hlength
    refine ⟨htop, hfree, r, hx.after? hr, ?_⟩
    simp only [List.length_append, Nat.add_sub_cancel]
  · rintro ⟨htop, hfree, r, hafter, rfl⟩
    obtain ⟨x, hx, rfl, hr⟩ := after?_eq_some_iff.1 hafter
    refine ⟨g, x, r, rfl, rfl, ?_, hx, htop, hfree, hr⟩
    simp only [List.length_append, Nat.add_sub_cancel]

theorem StandsAt.stop_eq {stop' : Nat} (h : clause.StandsAt t start stop)
    (h' : clause.StandsAt t start stop') : stop = stop' := by
  obtain ⟨g, x, r, rfl, rfl, -, -⟩ := standsAt_iff.1 h
  obtain ⟨_, _, r₁, hr₁, rfl⟩ := standsAt_append_iff.1 h
  obtain ⟨_, _, r₂, hr₂, rfl⟩ := standsAt_append_iff.1 h'
  rw [hr₁, Option.some.injEq] at hr₂
  rw [hr₂]

/-! ## The search

A step of the search passes one character and leaves out one place, where no
words stand. So by induction it ends at the first place there is, and finds none
only where there is none. -/

/-- What a search gives, that has come to a place: the first place from there on
that does not begin before its start either, or that there is none. -/
inductive Finds (clause : Clause) (t : Text) (pos : Nat) :
    Option (Nat × Nat) → Prop
  | first {start stop : Nat} (h : clause.IsFirst t pos start stop) :
      Finds clause t pos (some (start, stop))
  | nowhere (h : ∀ start stop, pos ≤ start → ¬ clause.StandsAt t start stop) :
      Finds clause t pos none

/-- Places where no words stand may be left out. -/
theorem Finds.of_le {pos' : Nat} {o : Option (Nat × Nat)}
    (h : Finds clause t pos' o) (hle : pos ≤ pos')
    (hnone : ∀ start stop, pos ≤ start → start < pos' →
      ¬ clause.StandsAt t start stop) :
    Finds clause t pos o := by
  cases h with
  | first h =>
      refine .first ⟨Nat.le_trans hle h.pos_le, h.stands,
        fun start' stop' hpos hstands => ?_⟩
      by_cases hlt : start' < pos'
      · exact absurd hstands (hnone start' stop' hpos hlt)
      · exact h.least start' stop' (Nat.le_of_not_lt hlt) hstands
  | nowhere h =>
      refine .nowhere fun start stop hpos hstands => ?_
      by_cases hlt : start < pos'
      · exact hnone start stop hpos hlt hstands
      · exact h start stop (Nat.le_of_not_lt hlt) hstands

theorem finds_findFrom? (g u : Text) : Finds clause (g ++ u) (max pos g.length)
    (clause.findFrom? pos g.length (Scan.start.run g)
      (freeAfter true g) u) := by
  induction u generalizing g with
  | nil =>
      refine .nowhere fun start stop hle h => ?_
      have hlt := h.lt
      have hstop := h.stop_le
      rw [List.append_nil] at hstop
      omega
  | cons c u ih =>
      rw [findFrom?]
      split
      · next rest hrest =>
          split at hrest
          · next hcond =>
              simp only [Bool.and_eq_true, decide_eq_true_eq] at hcond
              obtain ⟨⟨hle, htop⟩, hfree⟩ := hcond
              refine .first ⟨by omega,
                standsAt_append_iff.2 ⟨htop, hfree, rest, hrest, rfl⟩, ?_⟩
              intro start' stop' hle' _
              omega
          · cases hrest
      · next hnone =>
          have hfinds := ih (g ++ [c])
          rw [List.append_assoc, List.singleton_append, List.length_append,
            List.length_singleton, freeAfter, List.foldl_append,
            Scan.run_append] at hfinds
          refine hfinds.of_le (by omega) fun start stop hle hlt hstands => ?_
          -- between the two places to search from there is at most the one just
          -- tried
          obtain rfl : start = g.length := by omega
          obtain ⟨htop, hfree, r, hr, _⟩ := standsAt_append_iff.1 hstands
          have hpos : decide (pos ≤ g.length) = true :=
            decide_eq_true (by omega)
          rw [htop, hfree, hpos, Bool.and_self, Bool.and_self, if_pos rfl, hr]
            at hnone
          cases hnone

/-- A search finds the first place from its start on. -/
theorem finds_find? (clause : Clause) (t : Text) (pos : Nat) :
    Finds clause t pos (clause.find? t pos) := by
  have hfinds : Finds clause ([] ++ t) (max pos 0) (clause.find? t pos) :=
    finds_findFrom? [] t
  rwa [List.nil_append, Nat.max_zero] at hfinds

theorem find?_eq_some_iff :
    clause.find? t pos = some (start, stop) ↔
      clause.IsFirst t pos start stop := by
  have hfinds := finds_find? clause t pos
  generalize clause.find? t pos = o at hfinds
  constructor
  · rintro rfl
    cases hfinds with
    | first h => exact h
  · intro h
    cases hfinds with
    | @first start' stop' h' =>
        obtain rfl : start' = start :=
          Nat.le_antisymm (h'.least _ _ h.pos_le h.stands)
            (h.least _ _ h'.pos_le h'.stands)
        rw [h'.stands.stop_eq h.stands]
    | nowhere h' => exact absurd h.stands (h' _ _ h.pos_le)

theorem find?_eq_none_iff :
    clause.find? t pos = none ↔ ∀ start stop, pos ≤ start →
    ¬ clause.StandsAt t start stop := by
  have hfinds := finds_find? clause t pos
  generalize clause.find? t pos = o at hfinds
  constructor
  · rintro rfl
    cases hfinds with
    | nowhere h => exact h
  · intro h
    cases hfinds with
    | first h' => exact absurd h'.stands (h _ _ h'.pos_le)
    | nowhere _ => rfl

end RowSql.Clause
