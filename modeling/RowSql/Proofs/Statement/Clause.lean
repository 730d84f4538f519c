import RowSql.Proofs.Text.Scanning
import RowSql.Statement.Clause

/-!
# Where a clause is found

A clause is looked for at every character of a text, and whether it begins there
depends on the scan up to that character and on the text behind it. A part is
*unseen* when no clause of a kind begins at any of its characters, read in the
state and before the rest that it stands in. Unseen parts are passed over, and
the first place behind them where the clause's words stand is where it is found.

Quotes hide whatever is in them, so a quoted part is unseen; but the closing
quote of a part that ends in a backslash is not seen either, and then what hides
and what shows is exchanged from there on.
-/

namespace RowSql.Clause

open Text

variable {clause : Clause} {st : Scan} {free : Bool} {rest s t : Text}

/-! ## The words of a clause

A clause begins with a spelling of its first word that stands alone. That
already tells the clauses apart, and says that none begins at a mark or before
other letters. -/

theorem isKeyword_firstWord (clause : Clause) : IsKeyword clause.firstWord := by
  cases clause <;> decide

theorem opensFree_iff : opensFree t = true ↔ Bounded t := by
  cases t with
  | nil => exact ⟨fun _ => bounded_nil, fun _ => rfl⟩
  | cons c u => exact bounded_cons.symm

/-- A clause begins with a spelling of its first word, which stands alone. -/
theorem exists_of_after? {u : Text} (h : clause.after? t = some u) :
    ∃ x r, t = x ++ r ∧ Spells clause.firstWord x ∧ Bounded r := by
  rw [after?] at h
  split at h
  · next rest hrest =>
      obtain ⟨r, hr, hother⟩ := Option.bind_eq_some_iff.1 hrest
      obtain ⟨x, hx, rfl⟩ := afterWord?_eq_some_iff.1 hr
      refine ⟨x, r, rfl, hx, ?_⟩
      cases hwords : clause.otherWords with
      | nil =>
          rw [hwords, afterOtherWords?] at hother
          cases hother
          split at h
          · next hfree => exact opensFree_iff.1 hfree
          · cases h
      | cons w ws =>
          rw [hwords, afterOtherWords?] at hother
          split at hother
          · next hblank =>
              cases r with
              | nil => exact bounded_nil
              | cons c r => exact bounded_cons.2 hblank
          · cases hother
  · cases h

/-- Where no letter stands, no clause begins. -/
theorem after?_eq_none_of_apart (ht : Apart t) : clause.after? t = none := by
  rw [Option.eq_none_iff_forall_ne_some]
  intro u hu
  obtain ⟨x, r, rfl, hx, _⟩ := exists_of_after? hu
  exact clause.isKeyword_firstWord.not_apart hx r ht

/-- A text without blanks that is not the word of a clause does not begin it. -/
theorem after?_eq_none_of_not_spells {v : Text}
    (hv : ∀ c ∈ v, isBlank c = false) (hne : ¬ Spells clause.firstWord v)
    (hrest : Apart rest) :
    clause.after? (v ++ rest) = none := by
  rw [Option.eq_none_iff_forall_ne_some]
  intro u hu
  obtain ⟨x, r, h, hx, hr⟩ := exists_of_after? hu
  exact hne (clause.isKeyword_firstWord.eq_of_append hx hv hrest hr h ▸ hx)

/-- The word ORDER begins no clause when something else than BY follows it. -/
theorem after?_order_eq_none_of_noBy {v : Text}
    (hv : ∀ c ∈ v, isBlank c = false) (hrest : Bounded rest)
    (hnext : afterWord? "BY".toText (trimLeft rest) = none) :
    Clause.order.after? (v ++ rest) = none := by
  by_cases hsp : Spells Clause.order.firstWord v
  · rw [after?, afterWord?_eq_some_iff.2 ⟨v, hsp, rfl⟩, Option.bind_some,
      otherWords, afterOtherWords?, hnext, ite_self]
  · exact after?_eq_none_of_not_spells hv hsp hrest.apart

theorem after?_order_eq_none {v : Text} (hv : ∀ c ∈ v, isBlank c = false)
    (hrest : Bounded rest) (hnext : Apart (trimLeft rest)) :
    Clause.order.after? (v ++ rest) = none := by
  refine after?_order_eq_none_of_noBy hv hrest ?_
  rw [Option.eq_none_iff_forall_ne_some]
  intro u hu
  obtain ⟨x, hx, heq⟩ := afterWord?_eq_some_iff.1 hu
  have hby : IsKeyword "BY".toText := by decide
  exact hby.not_apart hx u (heq ▸ hnext)

/-- A clause of one word is found where the word stands before a blank. -/
theorem after?_eq_some {x : Text} (hwords : clause.otherWords = [])
    (hx : Spells clause.firstWord x) (hrest : Bounded rest) :
    clause.after? (x ++ rest) = some rest := by
  rw [after?, afterWord?_eq_some_iff.2 ⟨x, hx, rfl⟩, Option.bind_some, hwords,
    afterOtherWords?]
  exact if_pos (opensFree_iff.2 hrest)

/-! ## Unseen parts

Like an uncut part of a filter, a part is unseen together with the state and the
rest it is read in, and with whether a word may begin there. Such parts are put
together one behind the other. -/

/-- Whether a word may begin behind a text. -/
def freeAfter (free : Bool) (t : Text) : Bool :=
  t.foldl (fun _ c => isBlank c) free

theorem freeAfter_concat {c : CodePoint} (hc : isBlank c = true) :
    freeAfter free (s ++ [c]) = true := by
  rw [freeAfter, List.foldl_append]
  exact hc

/-- No clause begins at any character of a part. -/
def Unseen (clause : Clause) (st : Scan) (free : Bool) (rest : Text) :
    Text → Prop
  | [] => True
  | c :: s =>
      (st.atTop = true → free = true → clause.after? (c :: s ++ rest) = none) ∧
        Unseen clause (st.step c) (isBlank c) rest s

instance decidableUnseen (clause : Clause) (rest : Text) :
    (st : Scan) → (free : Bool) → (s : Text) →
    Decidable (Unseen clause st free rest s)
  | _, _, [] => inferInstanceAs (Decidable True)
  | st, _, c :: s =>
    have := decidableUnseen clause rest (st.step c) (isBlank c) s
    inferInstanceAs (Decidable (_ ∧ _))

theorem unseen_append :
    Unseen clause st free rest (s ++ t) ↔
      Unseen clause st free (t ++ rest) s ∧
        Unseen clause (st.run s) (freeAfter free s) rest t := by
  induction s generalizing st free with
  | nil => exact ⟨fun h => ⟨trivial, h⟩, And.right⟩
  | cons c s ih =>
      simp only [List.cons_append, Unseen, ih, and_assoc, List.append_assoc,
        Scan.run_cons, freeAfter, List.foldl_cons]

/-- Of what stands behind a part, only what is seen from the suffixes of the
part counts. -/
theorem Unseen.of_suffixes {rest' : Text} (h : Unseen clause st free rest s)
    (hnone : ∀ t, t <:+ s → clause.after? (t ++ rest) = none →
      clause.after? (t ++ rest') = none) :
    Unseen clause st free rest' s := by
  induction s generalizing st free with
  | nil => trivial
  | cons c s ih =>
      refine ⟨fun htop hfree => hnone _ List.suffix_rfl (h.1 htop hfree),
        ih h.2 ?_⟩
      exact fun t ht => hnone t (ht.trans (List.suffix_cons c s))

/-- Only the head of a part without blanks can begin a clause. -/
theorem unseen_of_solid (hs : ∀ c ∈ s, isBlank c = false)
    (h : clause.after? (s ++ rest) = none) : Unseen clause st free rest s := by
  cases s with
  | nil => trivial
  | cons c s =>
      rw [List.forall_mem_cons] at hs
      refine ⟨fun _ _ => h, ?_⟩
      rw [hs.1]
      clear h
      generalize st.step c = st'
      induction s generalizing st' with
      | nil => trivial
      | cons d s ih =>
          rw [List.forall_mem_cons] at hs
          refine ⟨fun _ hn => Bool.noConfusion hn, ?_⟩
          rw [hs.2.1]
          exact ih ⟨hs.1, hs.2.2⟩ (st'.step d)

/-- A part without letters begins no clause. -/
theorem unseen_of_marks
    (h : ∀ c ∈ s, (foldCase c).toNat < 65 ∨ 90 < (foldCase c).toNat) :
    Unseen clause st free rest s := by
  induction s generalizing st free with
  | nil => trivial
  | cons c s ih =>
      rw [List.forall_mem_cons] at h
      exact ⟨fun _ _ => after?_eq_none_of_apart (apart_cons.2 h.1), ih h.2⟩

theorem unseen_of_blanks (h : Blanks s) : Unseen clause st free rest s :=
  unseen_of_marks fun c hc => (bounded_cons (s := []).2 (h c hc)).apart c [] rfl

/-- Inside of quotes no clause begins. -/
theorem unseen_inside {q : CodePoint} {p : Text} (hp : q ∉ p) (d : Int)
    (e : Bool) :
    Unseen clause ⟨some q, d, e⟩ free rest p := by
  induction p generalizing e free with
  | nil => trivial
  | cons c s ih =>
      rw [List.mem_cons, not_or] at hp
      refine ⟨(fun ht => nomatch ht), ?_⟩
      rw [Scan.step_inside (Ne.symm hp.1)]
      exact ih hp.2 _

theorem toNat_foldCase_quote {q : CodePoint} (hq : isQuote q = true) :
    (foldCase q).toNat < 65 ∨ 90 < (foldCase q).toNat := by
  rcases isQuote_eq_true_iff.1 hq with rfl | rfl <;> decide

/-- A quoted part begins no clause, whatever it ends in. -/
theorem unseen_between {q : CodePoint} {p : Text} (hq : isQuote q = true)
    (hp : q ∉ p) (d : Int) :
    Unseen clause (Scan.outside d) free rest (between q p) := by
  have hmark := toNat_foldCase_quote hq
  rw [between, List.cons_append]
  refine ⟨fun _ _ => after?_eq_none_of_apart (apart_cons.2 hmark), ?_⟩
  rw [Scan.step_quote hq, unseen_append]
  refine ⟨unseen_inside hp d false, unseen_of_marks ?_⟩
  intro c hc
  rw [List.mem_singleton.1 hc]
  exact hmark

/-- Unseen parts that leave the scan where it was, with marks between
neighbours. -/
theorem unseen_join {separator : Text} {ts : List Text} {d : Int}
    (hne : separator ≠ [])
    (hmarks : ∀ c ∈ separator,
      (foldCase c).toNat < 65 ∨ 90 < (foldCase c).toNat)
    (hsep : (Scan.outside d).run separator = Scan.outside d)
    (hrun : ∀ t ∈ ts, (Scan.outside d).run t = Scan.outside d)
    (h : ∀ t ∈ ts, ∀ free rest, Apart rest →
      Unseen clause (Scan.outside d) free rest t)
    (hrest : Apart rest) :
    Unseen clause (Scan.outside d) free rest (join separator ts) := by
  induction ts generalizing free with
  | nil => trivial
  | cons t ts ih =>
      rw [List.forall_mem_cons] at h hrun
      cases ts with
      | nil => exact h.1 free rest hrest
      | cons u us =>
          have hapart (r : Text) : Apart (separator ++ r) := by
            obtain ⟨c, s, rfl⟩ := List.exists_cons_of_ne_nil hne
            exact apart_cons.2 (hmarks c List.mem_cons_self)
          rw [join, unseen_append, unseen_append, Scan.run_append, hrun.1, hsep]
          exact ⟨⟨h.1 _ _ (hapart _), unseen_of_marks hmarks⟩, ih hrun.2 h.2⟩

/-- A list of such parts, behind a space and before blanks. -/
theorem run_list {ts : List Text} {b : Text}
    (h : ∀ t ∈ ts, (Scan.outside 0).run t = .outside 0) (hb : Blanks b) :
    Scan.start.run ([.char ' '] ++ (join ", ".toText ts ++ b)) = .start := by
  have hspace : Scan.start.run [.char ' '] = .outside 0 := by decide
  rw [Scan.run_append, hspace, Scan.run_append,
    Scan.run_join (Scan.run_plain (by decide) 0) h]
  exact Scan.run_blanks hb 0

theorem unseen_list {ts : List Text} {b : Text}
    (hrun : ∀ t ∈ ts, (Scan.outside 0).run t = .outside 0)
    (h : ∀ t ∈ ts, ∀ free rest,
      Apart rest → Unseen clause (Scan.outside 0) free rest t)
    (hb : Blanks b) (hrest : Apart (b ++ rest)) :
    Unseen clause .start true rest
    ([.char ' '] ++ (join ", ".toText ts ++ b)) := by
  have hspace : Scan.start.run [.char ' '] = .outside 0 := by decide
  rw [unseen_append, unseen_append, hspace]
  refine ⟨unseen_of_blanks blanks_space, ?_, unseen_of_blanks hb⟩
  exact unseen_join (List.cons_ne_nil _ _) (by decide)
    (Scan.run_plain (by decide) 0) hrun h hrest

/-! ## Finding

The search goes over an unseen part without a result, and what it finds behind
it is there whatever the part was. -/

variable {start pos : Nat}

/-- An unseen part is passed over. -/
theorem findFrom?_append (h : Unseen clause st free rest s) :
    clause.findFrom? start pos st free (s ++ rest) =
      clause.findFrom? start (pos + s.length) (st.run s)
          (freeAfter free s) rest := by
  induction s generalizing pos st free with
  | nil => rfl
  | cons c s ih =>
      have hnone :
          (if start ≤ pos && st.atTop && free then
            clause.after? (c :: (s ++ rest))
            else none) = none := by
        split
        · next hc =>
            rw [Bool.and_eq_true, Bool.and_eq_true] at hc
            exact h.1 hc.1.2 hc.2
        · rfl
      rw [List.cons_append, findFrom?, hnone]
      show clause.findFrom? start (pos + 1) (st.step c) (isBlank c)
        (s ++ rest) = _
      rw [ih h.2, List.length_cons, Nat.add_assoc, Nat.add_comm 1]
      rfl

theorem find?_eq_none (h : Unseen clause .start true [] s) (start : Nat) :
    clause.find? s start = none := by
  have hfind := @findFrom?_append clause .start true [] s start 0 h
  rw [List.append_nil] at hfind
  rw [find?, hfind, findFrom?]

/-- The clause that stands behind an unseen part is found there. -/
theorem find?_append {x : Text} (h : Unseen clause .start true (x ++ rest) s)
    (ht : (Scan.start.run s).atTop = true) (hfree : freeAfter true s = true)
    (hx : x ≠ [])
    (hafter : clause.after? (x ++ rest) = some rest)
    (hstart : start ≤ s.length) :
    clause.find? (s ++ (x ++ rest)) start =
      some (s.length, s.length + x.length) := by
  obtain ⟨c, x, rfl⟩ := List.exists_cons_of_ne_nil hx
  have hcond :
      (start ≤ 0 + s.length && (Scan.start.run s).atTop && freeAfter true s) =
        true := by
    rw [ht, hfree, Nat.zero_add, decide_eq_true hstart]
    rfl
  rw [find?, findFrom?_append h, List.cons_append, findFrom?, if_pos hcond,
    ← List.cons_append, hafter]
  show some (0 + s.length,
    0 + s.length + ((c :: x ++ rest).length - rest.length)) = _
  rw [Nat.zero_add, List.length_append, Nat.add_sub_cancel]

end RowSql.Clause
