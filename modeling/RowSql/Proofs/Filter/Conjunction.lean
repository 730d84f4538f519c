import RowSql.Filter.Basic
import RowSql.Proofs.Filter.Disjunction
import RowSql.Proofs.Record
import RowSql.Proofs.Statement.Equation

/-!
# Filters of bound tests

Tests joined by AND are cut apart into themselves as long as the scan is outside
of quotes behind each of them, so the text of every test but the last must not
end in a backslash, and as long as no name behind an AND is a connective itself.
Then a record satisfies the filter exactly when its values are equal to the
texts that were bound, asked one after the other.
-/

namespace RowSql.Filter

open Text Statement

/-- A name and the text that is bound in an equation with it. -/
structure IsTest (x : Text × Text) : Prop where
  name : IsName x.1
  bindable : x.2.Bindable

instance (x : Text × Text) : Decidable (IsTest x) :=
  decidable_of_iff (IsName x.1 ∧ x.2.Bindable) ⟨fun h => ⟨h.1, h.2⟩,
    fun h => ⟨h.1, h.2⟩⟩

/-- Tests with AND between neighbours. -/
def conjunction (xs : List (Text × Text)) : Text :=
  join " AND ".toText (xs.map boundEquation)

/-- Tests that are told apart: behind an AND no name is a connective, and before
one every text closes its quotes for every scan. -/
structure Separable (xs : List (Text × Text)) : Prop where
  names : ∀ x ∈ xs.tail, NoConnective x.1
  texts : ∀ x ∈ xs.dropLast, x.2.getLast? ≠ some (.char '\\')

variable {x y : Text × Text} {xs : List (Text × Text)}

theorem separable_singleton (x : Text × Text) : Separable [x] :=
  ⟨fun _ hx => (nomatch hx), fun _ hx => (nomatch hx)⟩

theorem Separable.head (h : Separable (x :: y :: xs)) :
    x.2.getLast? ≠ some (.char '\\') :=
  h.texts x List.mem_cons_self

theorem Separable.second (h : Separable (x :: y :: xs)) : NoConnective y.1 :=
  h.names y List.mem_cons_self

theorem Separable.tail (h : Separable (x :: y :: xs)) : Separable (y :: xs) :=
  ⟨fun z hz => h.names z (List.mem_cons_of_mem y hz),
    fun z hz => h.texts z (List.mem_cons_of_mem x hz)⟩

theorem conjunction_cons_cons :
    conjunction (x :: y :: xs) = boundEquation x ++ " AND ".toText ++
      conjunction (y :: xs) :=
  rfl

/-- A conjunction opens with its first test. -/
theorem exists_conjunction_cons (x : Text × Text) (xs : List (Text × Text)) :
    ∃ r, conjunction (x :: xs) = boundEquation x ++ r :=
  exists_join_cons _ (boundEquation x) (xs.map boundEquation)

theorem isConnective_and : IsConnective "AND".toText " AND ".toText :=
  ⟨[.char ' '], "AND".toText, [.char ' '], rfl, blanks_space,
    List.cons_ne_nil _ _, spells_self _, blanks_space, List.cons_ne_nil _ _⟩

theorem joined_conjunction (h : xs ≠ []) :
    Joined "AND".toText (xs.map boundEquation) (conjunction xs) := by
  induction xs with
  | nil => exact absurd rfl h
  | cons x xs ih =>
      cases xs with
      | nil => exact .single _
      | cons y xs => exact .cons isConnective_and (ih (List.cons_ne_nil y xs))

theorem trimmed_conjunction (h : xs ≠ []) (hxs : ∀ x ∈ xs, IsTest x) :
    Trimmed (conjunction xs) := by
  refine (joined_conjunction h).trimmed fun u hu => ?_
  obtain ⟨x, hx, rfl⟩ := List.mem_map.1 hu
  exact ⟨equation_ne_nil (hxs x hx).name _,
    trimmed_equation (hxs x hx).name (isQuote_quoteOf _) _⟩

theorem run_test (hx : IsTest x) (hend : x.2.getLast? ≠ some (.char '\\')) :
    Scan.start.run (boundEquation x) = .start :=
  run_equation hx.name hx.bindable.encloses hend 0

/-- No OR begins in a conjunction of tests. -/
theorem uncut_conjunction (hxs : ∀ x ∈ xs, IsTest x) (hxs' : Separable xs) :
    Uncut "OR".toText .start [] (conjunction xs) := by
  have hor : IsKeyword "OR".toText := by decide
  induction xs with
  | nil => trivial
  | cons x xs ih =>
      rw [List.forall_mem_cons] at hxs
      have hx : ∀ rest, Uncut "OR".toText .start rest (boundEquation x) :=
        fun _ => uncut_equation hor hxs.1.name hxs.1.bindable.encloses 0
      cases xs with
      | nil => exact hx []
      | cons y xs =>
          have hy := hxs.2 y List.mem_cons_self
          obtain ⟨r, hr⟩ := exists_conjunction_cons y xs
          -- neither AND nor the name of the next test is the word OR
          have hand : ¬ OpensWithWord "OR".toText
              ("AND".toText ++ ([.char ' '] ++ conjunction (y :: xs))) :=
            not_opensWithWord_append hor (by decide) (by decide)
              (blanks_space.bounded (List.cons_ne_nil _ _)).apart
          have hnext : ¬ OpensWithWord "OR".toText (conjunction (y :: xs)) := by
            rw [hr]
            exact not_opensWithWord_equation hor hy.name
              (hxs'.second _ (by decide)) _ _
          have hflush :=
            (trimmed_conjunction (List.cons_ne_nil y xs) hxs.2).head
          have hsplit :
              " AND ".toText = [.char ' '] ++ ("AND".toText ++ [.char ' ']) :=
              rfl
          rw [conjunction_cons_cons, uncut_append, uncut_append,
            run_test hxs.1 hxs'.head, Scan.run_append, run_test hxs.1 hxs'.head,
            List.append_nil]
          refine ⟨⟨hx _, ?_⟩, ih hxs.2 hxs'.tail⟩
          rw [hsplit, uncut_append, uncut_append]
          refine ⟨uncut_of_blanks hor blanks_space ?_ ?_,
            uncut_of_solid (by decide),
            uncut_of_blanks hor blanks_space hflush hnext⟩
          · rw [List.append_assoc]
            exact flushLeft_cons.2 (by decide)
          · rw [List.append_assoc]
            exact hand

/-- A conjunction is cut apart into its tests. -/
theorem cutAtWord_conjunction (h : xs ≠ []) (hxs : ∀ x ∈ xs, IsTest x)
    (hxs' : Separable xs) :
    cutAtWord "AND".toText .start (conjunction xs) = xs.map boundEquation := by
  have hand : IsKeyword "AND".toText := by decide
  induction xs with
  | nil => exact absurd rfl h
  | cons x xs ih =>
      rw [List.forall_mem_cons] at hxs
      have hx : ∀ rest, Uncut "AND".toText .start rest (boundEquation x) :=
        fun _ => uncut_equation hand hxs.1.name hxs.1.bindable.encloses 0
      cases xs with
      | nil => exact cutAtWord_of_uncut (hx [])
      | cons y xs =>
          have hflush :=
            (trimmed_conjunction (List.cons_ne_nil y xs) hxs.2).head
          rw [conjunction_cons_cons,
            cutAtWord_append_connective hand isConnective_and hflush (hx _)
            (by rw [run_test hxs.1 hxs'.head]; rfl),
            ih (List.cons_ne_nil y xs) hxs.2 hxs'.tail]
          rfl

theorem unwrapParens_of_isWord {t : Text} (ht : Trimmed t) {c : CodePoint}
    {s : Text} (h : t = c :: s) (hc : isWord c = true) :
    unwrapParens t = t := by
  refine unwrapParens_of_head ht fun u hu => ?_
  rw [h, List.cons.injEq] at hu
  rw [hu.1] at hc
  exact absurd hc (by decide)

theorem unwrapParens_test (hx : IsTest x) :
    unwrapParens (boundEquation x) = boundEquation x := by
  obtain ⟨c, s, hcs, hc⟩ := exists_equation_cons hx.name x.2.quote
  exact unwrapParens_of_isWord
    (trimmed_equation hx.name (isQuote_quoteOf _) x.2) hcs hc

theorem branches_conjunction (h : xs ≠ []) (hxs : ∀ x ∈ xs, IsTest x)
    (hxs' : Separable xs) :
    branches (conjunction xs) = [conjunction xs] := by
  have hne : conjunction xs ≠ [] := (joined_conjunction h).ne_nil fun u hu => by
    obtain ⟨x, hx, rfl⟩ := List.mem_map.1 hu
    exact equation_ne_nil (hxs x hx).name _
  have hpieces : trimPieces [conjunction xs] = [conjunction xs] :=
    trimPieces_eq_self fun u hu => by
      rw [List.mem_singleton.1 hu]
      exact ⟨hne, trimmed_conjunction h hxs⟩
  have hup : upper "OR".toText = "OR".toText := by decide
  rw [branches, splitLogical, hup,
    cutAtWord_of_uncut (uncut_conjunction hxs hxs'), hpieces]

theorem leaves_conjunction (h : xs ≠ []) (hxs : ∀ x ∈ xs, IsTest x)
    (hxs' : Separable xs) :
    leaves (conjunction xs) = xs.map boundEquation := by
  obtain ⟨x, ys, rfl⟩ := List.exists_cons_of_ne_nil h
  obtain ⟨r, hr⟩ := exists_conjunction_cons x ys
  obtain ⟨c, s, hcs, hc⟩ :=
    exists_equation_cons (hxs x List.mem_cons_self).name x.2.quote
  have hopen : conjunction (x :: ys) = c :: (s ++ r) := by
    rw [hr, boundEquation, hcs, List.cons_append]
  have hpieces :
      trimPieces ((x :: ys).map boundEquation) = (x :: ys).map boundEquation :=
      trimPieces_eq_self fun u hu => by
      obtain ⟨y, hy, rfl⟩ := List.mem_map.1 hu
      exact ⟨equation_ne_nil (hxs y hy).name _,
        trimmed_equation (hxs y hy).name (isQuote_quoteOf _) _⟩
  have hup : upper "AND".toText = "AND".toText := by decide
  rw [leaves, unwrapParens_of_isWord (trimmed_conjunction h hxs) hopen hc,
    splitLogical, hup, cutAtWord_conjunction h hxs hxs', hpieces]
  show ((x :: ys).map boundEquation).map unwrapParens =
    (x :: ys).map boundEquation
  rw [List.map_map]
  exact List.map_congr_left fun y hy => unwrapParens_test (hxs y hy)

theorem allHold_map {α β ε : Type} (f : α → β) (p : β → Except ε Bool)
    (as : List α) :
    allHold p (as.map f) = allHold (p ∘ f) as := by
  induction as with
  | nil => rfl
  | cons a as ih => rw [List.map_cons, allHold, allHold, ih]; rfl

theorem allHold_congr {α ε : Type} {p q : α → Except ε Bool} {as : List α}
    (h : ∀ a ∈ as, p a = q a) : allHold p as = allHold q as := by
  induction as with
  | nil => rfl
  | cons a as ih =>
      rw [List.forall_mem_cons] at h
      rw [allHold, allHold, h.1, ih h.2]

/-- A record satisfies a conjunction of tests when its values are equal to the
texts that were bound. -/
theorem holds_conjunction (h : xs ≠ []) (hxs : ∀ x ∈ xs, IsTest x)
    (hxs' : Separable xs) (r : Record) :
    holds (conjunction xs) r =
      allHold (fun x => (r.value x.1).equal (.text x.2)) xs := by
  have hall : allHold (condition · r) (xs.map boundEquation) =
      allHold (fun x => (r.value x.1).equal (.text x.2)) xs := by
    rw [allHold_map]
    exact allHold_congr fun x hx =>
      condition_equation (hxs x hx).name (hxs x hx).bindable.encloses r
  rw [holds, branches_conjunction h hxs hxs', anyHolds, branchHolds,
    leaves_conjunction h hxs hxs', hall]
  cases allHold (fun x => (r.value x.1).equal (.text x.2)) xs with
  | error e => rfl
  | ok b => cases b <;> rfl

/-! ## Records that meet tests

Equality with a text fails for an integer that is no double, and for nothing
else. On records in range the tests can therefore be asked in any way, and what
they find is a proposition about the record. -/

/-- Under the name of each test there is a value, and it is loosely equal to its
text. -/
def Meets (xs : List (Text × Text)) (r : Record) : Prop :=
  ∀ x ∈ xs, ∃ v, r.get? x.1 = some v ∧ v.equal (.text x.2) = .ok true

/-- What is loosely equal to a text is there. -/
theorem value_equal_iff {r : Record} {name p : Text} :
    (r.value name).equal (.text p) = .ok true ↔
      ∃ v, r.get? name = some v ∧ v.equal (.text p) = .ok true := by
  rw [Record.value]
  cases r.get? name with
  | none =>
      have hnull : Value.null.equal (.text p) = .ok false := rfl
      rw [Option.getD_none, hnull]
      constructor
      · intro h
        cases h
      · rintro ⟨_, hv, _⟩
        cases hv
  | some v =>
      constructor
      · exact fun h => ⟨v, rfl, h⟩
      · rintro ⟨w, hw, h⟩
        exact Option.some.inj hw ▸ h

/-- A text is loosely equal to itself, as a number or as a text. -/
theorem equal_text_self (p : Text) :
    (Value.text p).equal (.text p) = .ok true := by
  have hnumber :
      (Value.text p).number? =
        .ok ((Binary64.ofField? p).filter (·.isFinite)) := rfl
  simp only [Value.equal, Value.isPresent, Bool.and_self, if_true, hnumber,
    bind, Except.bind, pure, Except.pure]
  cases h : (Binary64.ofField? p).filter (·.isFinite) with
  | none => rfl
  | some x =>
      obtain ⟨_, hfinite⟩ := Option.filter_eq_some_iff.1 h
      cases x with
      | finite negative units fits =>
          exact congrArg Except.ok (decide_eq_true rfl)
      | nan | infinite => cases hfinite

instance (xs : List (Text × Text)) (r : Record) : Decidable (Meets xs r) :=
  decidable_of_iff (∀ x ∈ xs,
    ((r.value x.1).equal (.text x.2)).toOption = some true) <| by
    refine forall₂_congr fun x _ => ?_
    rw [← value_equal_iff]
    cases (r.value x.1).equal (.text x.2) with
    | error e =>
        constructor <;> intro h <;> cases h
    | ok b => exact ⟨fun h => congrArg Except.ok (Option.some.inj h),
        fun h => congrArg some (Except.ok.inj h)⟩

/-- A record in range satisfies a conjunction of tests exactly when it meets
them. -/
theorem holds_conjunction_eq_ok (h : xs ≠ []) (hxs : ∀ x ∈ xs, IsTest x)
    (hxs' : Separable xs) {r : Record} (hr : r.InRange) :
    holds (conjunction xs) r = .ok (decide (Meets xs r)) := by
  have hequal : ∀ x ∈ xs, ∃ b, (r.value x.1).equal (.text x.2) = .ok b :=
    fun x _ =>
      (hr.value x.1).exists_equal (w := .text x.2) trivial
  obtain ⟨b, hb, hiff⟩ := allHold_eq_ok hequal
  have hmeets : b = true ↔ Meets xs r :=
    hiff.trans (forall₂_congr fun x _ => value_equal_iff)
  have hverdict : b = decide (Meets xs r) := by
    rw [Bool.eq_iff_iff, hmeets, decide_eq_true_iff]
  rw [holds_conjunction h hxs hxs', hb, hverdict]

end RowSql.Filter
