import Mathlib.Data.List.Forall2
import RowSql.Proofs.Query.Contents

/-!
# One filter in three statements

A SELECT, an UPDATE and a DELETE with one filter go by the verdict that it gives
on each row, and a verdict depends on nothing but the row. So the rows that the
three find are the same, and equal rows share their fate. What is left by a
DELETE is refused, so the DELETE finds nothing more. An UPDATE that is repeated
may find other rows than before: a row that it has amended may now be refused,
and one that was refused is as it was and is refused again. Whatever it finds is
a row that has been amended, and setting the same fields once more changes
nothing. That the filter gave a verdict on each row does not mean that it gives
one on the amended rows, for behind a test that used to hold another one is
looked at now.
-/

namespace RowSql

namespace Filter

variable {w : Text} {r : Record}

/-- The verdict on a row is good. -/
def accepts (w : Text) (r : Record) : Bool :=
  decide (holds w r = .ok true)

theorem holds_eq_accepts (h : ∃ b, holds w r = .ok b) :
    holds w r = .ok (accepts w r) := by
  obtain ⟨b, hb⟩ := h
  rw [accepts, hb]
  cases b <;> rfl

end Filter

/-- What a row is when texts are set in it. The names that it has keep their
places and new ones go last, in the order of their first mention; under each
name that is set is its last text. -/
structure IsAmended (xs : List (Text × Text)) (r r' : Record) : Prop where
  names : r'.fields.names =
    r.fields.names ++ ((xs.map Prod.fst).filter (· ∉ r.fields.names)).eraseDups
  value : ∀ name,
    r'.get? name = ((lastText? xs name).map .text).or (r.get? name)

theorem isAmended_setAll (xs : List (Text × Text)) (r : Record) :
    IsAmended xs r (r.setAll (textFields xs)) where
  names := by rw [Record.setAll, Named.names_setAll, names_textFields]
  value := r.get?_setAll_textFields xs

namespace Query

variable {ε : Type} {w : Text} {rows : List Record}

/-- The rows that an UPDATE leaves. -/
def amended (w : Text) (xs : List (Text × Text)) (rows : List Record) :
    List Record :=
  rows.map fun r => if Filter.accepts w r then r.setAll (textFields xs) else r

/-- A filter gives a verdict on each row, or it fails on one and the judgment
with it. -/
theorem judge_or (filter : Option Text) (rows : List Record) :
    (∀ r ∈ rows, ∃ b, filter.elim (.ok true) (Filter.holds · r) = .ok b) ∨
      ∃ r ∈ rows, ∃ e, filter.elim (.ok true) (Filter.holds · r) = .error e ∧
        judge filter rows = .error e := by
  induction rows with
  | nil => exact .inl nofun
  | cons r rs ih =>
      cases hr : filter.elim (.ok true) (Filter.holds · r) with
      | error e =>
          exact .inr ⟨r, List.mem_cons_self, e, hr, by rw [judge, hr]; rfl⟩
      | ok b =>
          rcases ih with h | ⟨s, hs, e, he, hjudge⟩
          · exact .inl (List.forall_mem_cons.2 ⟨⟨b, hr⟩, h⟩)
          · exact .inr ⟨s, List.mem_cons_of_mem r hs, e, he,
              by rw [judge, hr, hjudge]; rfl⟩

section

variable (h : ∀ r ∈ rows, ∃ b, Filter.holds w r = .ok b)
include h

theorem run_select (tables : Option (Tables ε)) (table : Text) (hw : w ≠ []) :
    run tables (.select ⟨table, ["*".toText], some w, none, none, []⟩) rows =
      .ok ⟨.rows (rows.filter (Filter.accepts w)), none⟩ :=
  select_eq tables table hw fun r hr => Filter.holds_eq_accepts (h r hr)

theorem run_delete (tables : Option (Tables ε)) (table : Text) :
    run tables (.delete ⟨table, some w⟩) rows =
      .ok ⟨.count (rows.filter (Filter.accepts w)).length,
        some (rows.filter fun r => !Filter.accepts w r)⟩ := by
  have hdelete :=
    delete_eq (s := ⟨table, some w⟩) fun r hr =>
      Filter.holds_eq_accepts (h r hr)
  rw [run, hdelete, List.countP_eq_length_filter]
  rfl

theorem run_update (tables : Option (Tables ε)) (table : Text)
    (xs : List (Text × Text)) :
    run tables (.update ⟨table, xs, some w⟩) rows =
      .ok ⟨.count (rows.filter (Filter.accepts w)).length,
        some (amended w xs rows)⟩ := by
  have hupdate :=
    update_eq (s := ⟨table, xs, some w⟩) fun r hr =>
      Filter.holds_eq_accepts (h r hr)
  rw [run, hupdate, List.countP_eq_length_filter]
  rfl

theorem run_delete_again (tables : Option (Tables ε)) (table : Text) :
    run tables (.delete ⟨table, some w⟩)
        (rows.filter fun r => !Filter.accepts w r) =
      .ok ⟨.count 0, some (rows.filter fun r => !Filter.accepts w r)⟩ := by
  rw [run_delete fun r hr => h r (List.mem_filter.1 hr).1]
  simp [List.filter_filter]

end

/-- To amend rows that have been amended changes nothing, whichever of them are
accepted. -/
theorem amended_amended (w : Text) (xs : List (Text × Text))
    (rows : List Record) :
    amended w xs (amended w xs rows) = amended w xs rows := by
  refine (List.map_congr_left fun r hr => ?_).trans (List.map_id _)
  obtain ⟨s, _, rfl⟩ := List.mem_map.1 hr
  by_cases hs : Filter.accepts w s = true
  · simp only [if_pos hs, Record.setAll_setAll, ite_self, id_eq]
  · simp only [if_neg hs, id_eq]

/-- What is repeated on the rows that it left finds some of them again and
leaves all as they are, if the filter does not fail on one. -/
theorem run_update_again (tables : Option (Tables ε)) (table w : Text)
    (xs : List (Text × Text)) (rows : List Record) :
    (∃ n, run tables (.update ⟨table, xs, some w⟩) (amended w xs rows) =
        .ok ⟨.count n, some (amended w xs rows)⟩) ∨
      ∃ r ∈ amended w xs rows, ∃ e, Filter.holds w r = .error e ∧
        run tables (.update ⟨table, xs, some w⟩) (amended w xs rows) =
          .error (.overflow e) := by
  rcases judge_or (some w) (amended w xs rows) with h | ⟨r, hr, e, he, hjudge⟩
  · have hrun := run_update h tables table xs
    rw [amended_amended] at hrun
    exact .inl ⟨_, hrun⟩
  · refine .inr ⟨r, hr, e, he, ?_⟩
    rw [run, update, hjudge]
    rfl

/-- For a filter that gives a verdict on each row the three statements find the
same rows. The DELETE leaves the others, in order, and finds nothing when it is
repeated. The UPDATE amends what it finds and leaves the others as they are;
when it is repeated it leaves all rows as they are, if the filter does not fail
on one of them. -/
theorem run_agree (tables : Option (Tables ε)) (table : Text)
    (xs : List (Text × Text)) (hw : w ≠ [])
    (h : ∀ r ∈ rows, ∃ b, Filter.holds w r = .ok b) :
    ∃ found rest new,
      run tables (.select ⟨table, ["*".toText], some w, none, none, []⟩) rows =
        .ok ⟨.rows found, none⟩ ∧
      run tables (.delete ⟨table, some w⟩) rows =
        .ok ⟨.count found.length, some rest⟩ ∧
      run tables (.update ⟨table, xs, some w⟩) rows =
        .ok ⟨.count found.length, some new⟩ ∧
      found = rows.filter (· ∈ found) ∧ rest = rows.filter (· ∉ found) ∧
      List.Forall₂ (fun r r' => if r ∈ found then IsAmended xs r r' else r' = r)
          rows new ∧
      run tables (.delete ⟨table, some w⟩) rest = .ok ⟨.count 0, some rest⟩ ∧
      ((∃ n, run tables (.update ⟨table, xs, some w⟩) new =
          .ok ⟨.count n, some new⟩) ∨
        ∃ r ∈ new, ∃ e, Filter.holds w r = .error e ∧
          run tables (.update ⟨table, xs, some w⟩) new =
            .error (.overflow e)) := by
  have hfound {r : Record} (hr : r ∈ rows) :
      r ∈ rows.filter (Filter.accepts w) ↔ Filter.accepts w r = true := by
    rw [List.mem_filter, and_iff_right hr]
  refine ⟨_, _, _, run_select h tables table hw, run_delete h tables table,
    run_update h tables table xs, ?_, ?_, ?_, run_delete_again h tables table,
    run_update_again tables table w xs rows⟩
  · refine List.filter_congr fun r hr => ?_
    rw [Bool.eq_iff_iff, decide_eq_true_iff, hfound hr]
  · refine List.filter_congr fun r hr => ?_
    rw [Bool.eq_iff_iff, decide_eq_true_iff, hfound hr, Bool.not_eq_true',
      Bool.not_eq_true]
  · rw [amended, List.forall₂_map_right_iff, List.forall₂_same]
    intro r hr
    by_cases hs : Filter.accepts w r = true
    · rw [if_pos ((hfound hr).2 hs), if_pos hs]
      exact isAmended_setAll xs r
    · rw [if_neg (mt (hfound hr).1 hs), if_neg hs]

/-- The filter below finds the first three of these rows. When they have been
amended it finds only the second of them. -/
def staged : List Record :=
  [.ofFields [("a".toText, .text "1".toText), ("b".toText, .null)],
    .ofFields [("b".toText, .text "xy".toText)],
    .ofFields [("b".toText, .integer 7), ("a".toText, .boolean true)],
    .ofFields [("a".toText, .double (.ofInt 2)),
      ("b".toText, .text "yx".toText)]]

def stagedFilter : Text := "a = 1 OR b LIKE 'x%'".toText

def restaging : List (Text × Text) :=
  [("c".toText, "new".toText), ("a".toText, "2".toText),
    ("a".toText, "3".toText)]

theorem run_agree_staged :
    ∃ found rest new,
      run (ε := Empty) none
          (.select ⟨"t".toText, ["*".toText], some stagedFilter, none, none,
            []⟩) staged =
        .ok ⟨.rows found, none⟩ ∧
      run (ε := Empty) none (.delete ⟨"t".toText, some stagedFilter⟩) staged =
        .ok ⟨.count found.length, some rest⟩ ∧
      run (ε := Empty) none (.update ⟨"t".toText, restaging, some stagedFilter⟩)
        staged =
        .ok ⟨.count found.length, some new⟩ ∧
      found = staged.filter (· ∈ found) ∧ rest = staged.filter (· ∉ found) ∧
      List.Forall₂ (fun r r' => if r ∈ found then IsAmended restaging r r'
        else r' = r) staged new ∧
      run (ε := Empty) none (.delete ⟨"t".toText, some stagedFilter⟩) rest =
        .ok ⟨.count 0, some rest⟩ ∧
      ((∃ n,
        run (ε := Empty) none
          (.update ⟨"t".toText, restaging, some stagedFilter⟩) new =
          .ok ⟨.count n, some new⟩) ∨
        ∃ r ∈ new, ∃ e, Filter.holds stagedFilter r = .error e ∧
          run (ε := Empty) none
            (.update ⟨"t".toText, restaging, some stagedFilter⟩) new =
            .error (.overflow e)) := by
  have h : ∀ r ∈ staged,
      Filter.holds stagedFilter r = .ok (Filter.accepts stagedFilter r) := by
    decide +kernel
  exact run_agree none "t".toText restaging (by decide) fun r hr => ⟨_, h r hr⟩

/-! ## An update that cannot be repeated

Where a test in front shielded an integer that cannot be compared, an update may
take the shield away. -/

/-- A row with an integer that cannot be compared, and an UPDATE whose filter
does not look at it as long as its first test holds. -/
def shielded : Record :=
  .ofFields [("b".toText, .text "1".toText),
    ("big".toText, .integer (Nat.pow 10 400))]

def shieldedFilter : Text := "b = 1 OR big = 2".toText

def unshielding : List (Text × Text) := [("b".toText, "2".toText)]

/-- The filter gives a verdict on the row, and when the UPDATE has amended the
row it fails on it. -/
theorem run_update_shielded :
    shieldedFilter ≠ [] ∧
      (∀ r ∈ [shielded], ∃ b, Filter.holds shieldedFilter r = .ok b) ∧
      ∃ new,
        run (ε := Empty) none
            (.update ⟨"t".toText, unshielding, some shieldedFilter⟩)
            [shielded] =
          .ok ⟨.count 1, some new⟩ ∧
        run (ε := Empty) none
            (.update ⟨"t".toText, unshielding, some shieldedFilter⟩) new =
          .error (.overflow .integerTooLarge) := by
  have h : ∀ r ∈ [shielded], Filter.holds shieldedFilter r = .ok true := by
    decide +kernel
  refine ⟨by decide, fun r hr => ⟨true, h r hr⟩,
    [shielded.setAll (textFields unshielding)], ?_, ?_⟩
  · decide +kernel
  · decide +kernel

end Query

end RowSql
