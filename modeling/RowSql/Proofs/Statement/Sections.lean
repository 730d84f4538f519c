import RowSql.Proofs.Statement.Clause

/-!
# Texts of clauses

A text in which clauses stand in order is split into them when each of them is
found where it stands. Three things can get in the way: a clause that is not
there is found inside of another one, a clause is found too early, or the body
before it is left inside of quotes or parentheses. So of a body that is not the
last it is asked that it is left outside of both, and of every body that no
other clause that is still to be looked for begins in it.
-/

namespace RowSql.Clause

open Text

variable {clause : Clause} {clauses : List Clause} {s g r u x b : Text}
  {bodies bs : List (Clause × Text)}

/-! ## Clauses behind a position

A search from a position looks at the text behind it, with the scan of all that
is before. -/

/-- What stands before the position from which a clause is looked for only
counts for the scan. -/
theorem findFrom?_of_le {start pos : Nat} {st : Scan} {free : Bool}
    (h : pos + s.length ≤ start) :
    clause.findFrom? start pos st free (s ++ u) =
      clause.findFrom? start (pos + s.length) (st.run s)
          (freeAfter free s) u := by
  induction s generalizing pos st free with
  | nil => rfl
  | cons c s ih =>
      rw [List.length_cons] at h ⊢
      have hlt : decide (start ≤ pos) = false := decide_eq_false (by omega)
      rw [List.cons_append, findFrom?, hlt, Bool.false_and, Bool.false_and]
      show clause.findFrom? start (pos + 1) (st.step c) (isBlank c) (s ++ u) = _
      rw [ih (by omega), Nat.add_assoc, Nat.add_comm 1]
      rfl

theorem find?_eq_none_of_unseen
    (h : clause.Unseen (Scan.start.run s) (freeAfter true s) [] u) :
    clause.find? (s ++ u) s.length = none := by
  have hfind := @findFrom?_append clause _ _ [] u s.length s.length h
  rw [List.append_nil, findFrom?] at hfind
  rw [find?, findFrom?_of_le (by omega), Nat.zero_add, hfind]

theorem find?_eq_some_of_unseen
    (h : clause.Unseen (Scan.start.run s) (freeAfter true s) (x ++ r) g)
    (htop : (Scan.start.run (s ++ g)).atTop = true)
    (hfree : freeAfter true (s ++ g) = true) (hx : x ≠ [])
    (hafter : clause.after? (x ++ r) = some r) :
    clause.find? (s ++ (g ++ (x ++ r))) s.length =
      some ((s ++ g).length, (s ++ g ++ x).length) := by
  obtain ⟨c, x, rfl⟩ := List.exists_cons_of_ne_nil hx
  have htop' : ((Scan.start.run s).run g).atTop = true := by
    rwa [← Scan.run_append]
  have hfree' : freeAfter (freeAfter true s) g = true := by
    rwa [freeAfter, freeAfter, ← List.foldl_append]
  have hle : decide (s.length ≤ s.length + g.length) = true :=
    decide_eq_true (Nat.le_add_right _ _)
  rw [find?, findFrom?_of_le (by omega), Nat.zero_add, findFrom?_append h,
    List.cons_append, findFrom?, htop', hfree', hle, Bool.and_self,
    Bool.and_self, if_pos rfl, ← List.cons_append, hafter]
  simp only [List.length_append, Nat.add_sub_cancel]

/-! ## Splitting

The splitter is described by what it answers: a place for each clause that
is there, and none for each that is not, in the order in which they are
looked for. -/

/-- How a text `u` behind a text `s` is split into clauses: what stands before
the first of them, and the body of each. -/
inductive Laid : List Clause → Text → Text → Text → List (Clause × Text) → Prop
  | done (s g : Text) : Laid [] s g g []
  | absent {clause : Clause} {clauses : List Clause} {s u g : Text}
      {bodies : List (Clause × Text)}
      (h : clause.Unseen (Scan.start.run s) (freeAfter true s) [] u)
      (hrest : Laid clauses s u g bodies) :
        Laid (clause :: clauses) s u g bodies
  | found {clause : Clause} {clauses : List Clause} {s g x r b : Text}
      {bodies : List (Clause × Text)}
      (h : clause.Unseen (Scan.start.run s) (freeAfter true s) (x ++ r) g)
      (htop : (Scan.start.run (s ++ g)).atTop = true)
        (hfree : freeAfter true (s ++ g) = true)
      (hx : x ≠ []) (hafter : clause.after? (x ++ r) = some r)
        (hb : trim b ≠ [])
      (hrest : Laid clauses (s ++ g ++ x) r b bodies) :
      Laid (clause :: clauses) s (g ++ (x ++ r)) g ((clause, trim b) :: bodies)

/-- The clauses are found with their bodies, behind what stands before the
first. -/
theorem Laid.spans (h : Laid clauses s u g bodies) :
    (∃ r, u = g ++ r) ∧
      boundary (s ++ u) (spans (s ++ u) clauses s.length) = (s ++ g).length ∧
      bodies? (s ++ u) (Clause.spans (s ++ u) clauses s.length) =
        some bodies := by
  induction h with
  | done s g => exact ⟨⟨[], (List.append_nil g).symm⟩, rfl, rfl⟩
  | absent h _ ih =>
      rw [Clause.spans, find?_eq_none_of_unseen h]
      exact ih
  | @found clause clauses s g x r b bodies h htop hfree hx hafter hb _ ih =>
      obtain ⟨⟨r', rfl⟩, hboundary, hbodies⟩ := ih
      have hsplit :
          s ++ (g ++ (x ++ (b ++ r'))) = s ++ g ++ x ++ (b ++ r') := by
        simp only [List.append_assoc]
      -- a body ends where the next clause that is found begins: its boundary is
      -- the hypothesis
      refine ⟨⟨_, rfl⟩, ?_, ?_⟩
      · rw [Clause.spans, find?_eq_some_of_unseen h htop hfree hx hafter]
        rfl
      · have hbody :
            ((s ++ g ++ x ++ (b ++ r')).take (s ++ g ++ x ++ b).length).drop
              (s ++ g ++ x).length = b := by
          rw [← List.append_assoc (s ++ g ++ x) b r', List.take_left,
            List.drop_left]
        obtain ⟨c, t, hct⟩ := List.exists_cons_of_ne_nil hb
        rw [Clause.spans, find?_eq_some_of_unseen h htop hfree hx hafter,
          hsplit]
        simp only [bodies?, hboundary, hbody, hbodies, hct]

theorem Laid.split?_eq (h : Laid clauses [] u g bodies) (hg : Blanks g) :
    split? clauses u = some bodies := by
  obtain ⟨⟨r, hr⟩, hboundary, hbodies⟩ := h.spans
  rw [List.nil_append, List.length_nil] at hboundary hbodies
  have hlead : trim (u.take (boundary u (Clause.spans u clauses 0))) = [] := by
    rw [hboundary, List.nil_append, hr, List.take_left]
    exact trim_eq_nil_iff.2 hg
  rw [split?]
  simp only [hlead, hbodies]
  rfl

/-! ## Clauses written one after the other

Clauses are written with single spaces, the last with nothing behind it. A body
is silent about a clause if none begins in it there, and closes unless it is the
last. -/

/-- The words of a clause. -/
def words (clause : Clause) : Text :=
  join [.char ' '] (clause.firstWord :: clause.otherWords)

/-- A clause's body with the spaces around it; the last one has none behind
it. -/
def padded (b : Text) : List (Clause × Text) → Text
  | [] => .char ' ' :: b
  | _ :: _ => .char ' ' :: b ++ [.char ' ']

/-- Clauses with their bodies. -/
def text : List (Clause × Text) → Text
  | [] => []
  | (clause, b) :: bs => clause.words ++ (padded b bs ++ text bs)

/-- Clauses with their bodies, behind a space if there are any. -/
def spaced : List (Clause × Text) → Text
  | [] => []
  | p :: ps => .char ' ' :: text (p :: ps)

/-- Nothing stands there, or a blank and then something that does not complete
the words of a clause. -/
structure Closing (r : Text) : Prop where
  bounded : Bounded r
  noBy : afterWord? "BY".toText (trimLeft r) = none

/-- No clause of a kind begins in a body. -/
def Silent (clause : Clause) (b : Text) : Prop :=
  ∀ free r, Closing r → clause.Unseen (Scan.outside 0) free r (.char ' ' :: b)

/-- A body is left outside of quotes and parentheses. -/
def Closes (b : Text) : Prop :=
  ((Scan.outside 0).run (.char ' ' :: b)).atTop = true

/-- Clauses among those that are looked for, in their order. -/
inductive Chosen : List Clause → List (Clause × Text) → Prop
  | nil : Chosen [] []
  | skip {clause : Clause} {clauses : List Clause} {bs : List (Clause × Text)}
      (h : ∀ b ∈ bs, clause ≠ b.1 ∧ clause.Silent b.2)
        (hrest : Chosen clauses bs) :
      Chosen (clause :: clauses) bs
  | take {clause : Clause} {clauses : List Clause} {b : Text}
      {bs : List (Clause × Text)}
      (hne : b ≠ []) (htrim : Trimmed b) (hclose : bs ≠ [] → Closes b)
      (h : ∀ c ∈ clauses, Silent c b) (hrest : Chosen clauses bs) :
      Chosen (clause :: clauses) ((clause, b) :: bs)

theorem Chosen.none (clauses : List Clause) : Chosen clauses [] := by
  induction clauses with
  | nil => exact .nil
  | cons c cs ih => exact .skip (fun _ hb => absurd hb List.not_mem_nil) ih

/-- A body that nothing follows need not leave quotes and parentheses. -/
theorem Chosen.last (hne : b ≠ []) (htrim : Trimmed b)
    (h : ∀ c ∈ clauses, Silent c b) :
    Chosen (clause :: clauses) [(clause, b)] :=
  .take hne htrim (fun hn => absurd rfl hn) h (.none clauses)

theorem words_ne_nil (clause : Clause) : clause.words ≠ [] := by
  cases clause <;> decide

theorem bounded_padded (b : Text) (bs : List (Clause × Text)) (r : Text) :
    Bounded (padded b bs ++ r) := by
  cases bs <;> exact bounded_cons.2 (by decide)

theorem trim_padded (h : Trimmed b) (bs : List (Clause × Text)) :
    trim (padded b bs) = b := by
  cases bs with
  | nil => exact (trim_append_of_blanks (t := b) blanks_space).trans h.trim_eq
  | cons p ps =>
      exact (trim_blanks_append (t := b) blanks_space blanks_space).trans
        h.trim_eq

theorem closing_nil : Closing [] := ⟨bounded_nil, rfl⟩

theorem freeAfter_padded (b : Text) (p : Clause × Text)
    (bs : List (Clause × Text)) (s : Text) :
    freeAfter true (s ++ padded b (p :: bs)) = true := by
  rw [padded, ← List.append_assoc]
  exact freeAfter_concat (by decide)

theorem trimLeft_spaced (bs : List (Clause × Text)) :
    trimLeft (spaced bs) = text bs := by
  cases bs with
  | nil => rfl
  | cons p ps =>
      obtain ⟨clause, b⟩ := p
      rw [spaced, trimLeft_cons_blank (by decide), text]
      cases clause <;> exact trimLeft_cons (by decide)

theorem bounded_spaced (bs : List (Clause × Text)) : Bounded (spaced bs) := by
  cases bs with
  | nil => exact bounded_nil
  | cons p ps => exact bounded_cons.2 (by decide)

theorem text_ne_nil (p : Clause × Text) (ps : List (Clause × Text)) :
    text (p :: ps) ≠ [] :=
  List.append_ne_nil_of_left_ne_nil p.1.words_ne_nil _

/-- A text of clauses ends with the last body. -/
theorem flushRight_text (h : ∀ p ∈ bs, p.2 ≠ [] ∧ Trimmed p.2) :
    FlushRight (text bs) := by
  induction bs with
  | nil => exact flushRight_nil
  | cons p bs ih =>
      obtain ⟨c, b⟩ := p
      obtain ⟨⟨hne, htrim⟩, hbs⟩ := List.forall_mem_cons.1 h
      rw [text]
      cases bs with
      | nil =>
          show FlushRight (c.words ++ ([.char ' '] ++ b ++ []))
          rw [List.append_nil, ← List.append_assoc]
          exact (flushRight_append hne).2 htrim.last
      | cons q qs =>
          rw [← List.append_assoc]
          exact (flushRight_append (text_ne_nil q qs)).2 (ih hbs)

theorem flushRight_spaced (h : ∀ p ∈ bs, p.2 ≠ [] ∧ Trimmed p.2) :
    FlushRight (spaced bs) := by
  cases bs with
  | nil => exact flushRight_nil
  | cons p ps =>
      rw [spaced, ← List.singleton_append]
      exact (flushRight_append (text_ne_nil p ps)).2 (flushRight_text h)

end RowSql.Clause
