import RowSql.Proofs.Record
import RowSql.Proofs.Statement.Texts
import RowSql.Query.Basic

/-!
# What running a statement leaves

Where the verdict of the filter on each row is known, so is the whole outcome.
What is known of every outcome is less. Only a SELECT leaves its table alone.
The other kinds of statement leave rows whose fields are no news: each has been
in a row of the table before, or is a name and a text that the statement writes.
-/

namespace RowSql

namespace Query

variable {ε : Type} {filter : Option Text} {rows : List Record}

theorem of_mapError_eq_ok {ε ε' α : Type} {f : ε → ε'} {x : Except ε α} {a : α}
    (h : x.mapError f = .ok a) : x = .ok a := by
  cases x with
  | error e => cases h
  | ok b => exact congrArg Except.ok (Except.ok.inj h)

/-! ## Verdicts

When all rows can be judged, the rows with their verdicts are a map over the
rows, and those that are accepted and refused are two filters of them. -/

/-- The rows that are judged are the rows with verdicts. -/
theorem map_fst_judge {verdicts : List (Record × Bool)}
    (h : judge filter rows = .ok verdicts) :
    verdicts.map Prod.fst = rows := by
  induction rows generalizing verdicts with
  | nil =>
      cases h
      rfl
  | cons r rs ih =>
      obtain ⟨v, _, h⟩ := Statement.bind_eq_ok.1 h
      obtain ⟨vs, hvs, h⟩ := Statement.bind_eq_ok.1 h
      cases h
      rw [List.map_cons, ih hvs]

/-- Where the verdict on each row is known, so are all of them. -/
theorem judge_eq_map {p : Record → Bool}
    (h : ∀ r ∈ rows, filter.elim (.ok true) (Filter.holds · r) = .ok (p r)) :
    judge filter rows = .ok (rows.map fun r => (r, p r)) := by
  induction rows with
  | nil => rfl
  | cons r rs ih =>
      rw [List.forall_mem_cons] at h
      rw [judge, h.1, ih h.2]
      rfl

theorem accepted_map (p : Record → Bool) (rows : List Record) :
    accepted (rows.map fun r => (r, p r)) = rows.filter p := by
  rw [accepted, List.filter_map, List.map_map]
  exact List.map_id _

theorem refused_map (p : Record → Bool) (rows : List Record) :
    refused (rows.map fun r => (r, p r)) = rows.filter fun r => !p r := by
  rw [refused, List.filter_map, List.map_map]
  exact List.map_id _

/-! ## Statements

What each statement answers and leaves, given the verdicts of its filter.
Everything else about statements goes through these. -/

variable {tables : Option (Tables ε)} {o : Outcome}

/-- A SELECT takes four steps, of which the last cannot fail. -/
theorem select_eq_ok_iff {s : Select} : select tables s rows = .ok o ↔
    ∃ source verdicts ordered, sourceRows tables s rows = .ok source ∧
      judge (selectFilter s) source = .ok verdicts ∧
      orderRows s.order (accepted verdicts) = .ok ordered ∧
      o = ⟨.rows (projectRows s.columns (limitRows s.limit ordered)),
        none⟩ := by
  constructor
  · intro h
    obtain ⟨source, hsource, h⟩ := Statement.bind_eq_ok.1 h
    obtain ⟨verdicts, hverdicts, h⟩ := Statement.bind_eq_ok.1 h
    obtain ⟨ordered, hordered, h⟩ := Statement.bind_eq_ok.1 h
    exact ⟨source, verdicts, ordered, hsource, of_mapError_eq_ok hverdicts,
      of_mapError_eq_ok hordered, (Except.ok.inj h).symm⟩
  · rintro ⟨source, verdicts, ordered, hsource, hverdicts, hordered, rfl⟩
    rw [select, hsource]
    show ((judge (selectFilter s) source).mapError _ >>= _) = _
    rw [hverdicts]
    show ((orderRows s.order (accepted verdicts)).mapError _ >>= _) = _
    rw [hordered]
    rfl

/-- All columns of the rows that a filter accepts, in their order. -/
theorem select_eq (tables : Option (Tables ε)) (table : Text) {w : Text}
    {p : Record → Bool} (hw : w ≠ [])
    (h : ∀ r ∈ rows, Filter.holds w r = .ok (p r)) :
    select tables ⟨table, ["*".toText], some w, none, none, []⟩ rows =
      .ok ⟨.rows (rows.filter p), none⟩ := by
  have hfilter :
      selectFilter ⟨table, ["*".toText], some w, none, none, []⟩ = some w :=
      if_neg fun hn => hw (Option.some.inj hn)
  have hjudge : judge (some w) rows = .ok (rows.map fun r => (r, p r)) :=
    judge_eq_map h
  rw [← accepted_map]
  exact select_eq_ok_iff.2 ⟨rows, _, _, rfl, by rw [hfilter, hjudge], rfl, rfl⟩

/-- An UPDATE sets its fields in the rows that its filter accepts. -/
theorem update_eq {s : Update} {p : Record → Bool}
    (h : ∀ r ∈ rows, s.filter.elim (.ok true) (Filter.holds · r) = .ok (p r)) :
    update s rows = .ok ⟨.count (rows.countP p),
      some (rows.map fun r => if p r then r.setAll (newFields s) else r)⟩ := by
  rw [update, judge_eq_map h]
  show Except.ok
    (Outcome.mk (.count (accepted (rows.map fun r => (r, p r))).length) _) = _
  rw [accepted_map, ← List.countP_eq_length_filter, List.map_map]
  rfl

/-- A DELETE leaves the rows that its filter refuses. -/
theorem delete_eq {s : Delete} {p : Record → Bool}
    (h : ∀ r ∈ rows, s.filter.elim (.ok true) (Filter.holds · r) = .ok (p r)) :
    delete s rows = .ok ⟨.count (rows.countP p),
      some (rows.filter fun r => !p r)⟩ := by
  rw [delete, judge_eq_map h]
  show Except.ok
    (Outcome.mk (.count (accepted (rows.map fun r => (r, p r))).length)
    (some (refused (rows.map fun r => (r, p r))))) = _
  rw [accepted_map, refused_map, ← List.countP_eq_length_filter]

/-! ## Fields

A field of a new row was in some row before, or is one that the statement
writes. So whatever holds of both holds of all that is left in a table. -/

/-- Every field of a record has been in a row, or is one that a statement
writes. -/
def Accounts (s : Statement) (rows : List Record) (r : Record) : Prop :=
  ∀ f ∈ r.fields, (∃ r' ∈ rows, f ∈ r'.fields) ∨ ∃ w ∈ s.writes,
  f = (w.1, .text w.2)

variable {s : Statement}

theorem accounts_of_mem {r : Record} (h : r ∈ rows) : Accounts s rows r :=
  fun _ hf => .inl ⟨r, h, hf⟩

theorem accounts_newRecord (s : Insert) (rows : List Record) :
    Accounts (.insert s) rows (newRecord s) := by
  intro f hf
  rcases Named.mem_of_mem_setAll hf with hf | hf
  · cases hf
  · obtain ⟨w, hw, rfl⟩ := List.mem_map.1 hf
    exact .inr ⟨w, hw, rfl⟩

theorem accounts_setAll {s : Update} {r : Record} (h : r ∈ rows) :
    Accounts (.update s) rows (r.setAll (newFields s)) := by
  intro f hf
  rcases Named.mem_of_mem_setAll hf with hf | hf
  · exact .inl ⟨r, h, hf⟩
  · obtain ⟨w, hw, rfl⟩ := List.mem_map.1 hf
    exact .inr ⟨w, hw, rfl⟩

theorem contents_of_select {s : Select} (h : select tables s rows = .ok o) :
    o.contents = none := by
  obtain ⟨_, _, _, _, _, _, rfl⟩ := select_eq_ok_iff.1 h
  rfl

theorem contents_of_update {s : Update} (h : update s rows = .ok o) :
    ∃ new, o.contents = some new ∧ ∀ r ∈ new, Accounts (.update s) rows r := by
  obtain ⟨verdicts, hjudge, h⟩ := Statement.bind_eq_ok.1 h
  cases h
  refine ⟨_, rfl, fun r hr => ?_⟩
  obtain ⟨v, hv, rfl⟩ := List.mem_map.1 hr
  have hrow : v.1 ∈ rows := map_fst_judge hjudge ▸ List.mem_map_of_mem hv
  split
  · exact accounts_setAll hrow
  · exact accounts_of_mem hrow

theorem contents_of_delete {s : Delete} (h : delete s rows = .ok o) :
    ∃ new, o.contents = some new ∧ ∀ r ∈ new, r ∈ rows := by
  obtain ⟨verdicts, hjudge, h⟩ := Statement.bind_eq_ok.1 h
  cases h
  refine ⟨_, rfl, fun r hr => ?_⟩
  obtain ⟨v, hv, rfl⟩ := List.mem_map.1 hr
  exact map_fst_judge hjudge ▸ List.mem_map_of_mem (List.mem_filter.1 hv).1

/-- A statement that writes leaves rows that it accounts for, and a SELECT
leaves none. -/
theorem contents_of_run (h : run tables s rows = .ok o) :
    if s.kind = .select then o.contents = none
    else ∃ new, o.contents = some new ∧ ∀ r ∈ new, Accounts s rows r := by
  cases s with
  | select s => exact contents_of_select h
  | insert s =>
      cases h
      refine ⟨_, rfl, fun r hr => ?_⟩
      rcases List.mem_append.1 hr with hr | hr
      · exact accounts_of_mem hr
      · rw [List.mem_singleton.1 hr]
        exact accounts_newRecord s rows
  | update s => exact contents_of_update (of_mapError_eq_ok h)
  | delete s =>
      obtain ⟨new, hnew, hrows⟩ := contents_of_delete (of_mapError_eq_ok h)
      exact ⟨new, hnew, fun r hr => accounts_of_mem (hrows r hr)⟩

/-- A statement accounts for the rows that it leaves. -/
theorem accounts_of_run (h : run tables s rows = .ok o) {new : List Record}
    (hnew : o.contents = some new) : ∀ r ∈ new, Accounts s rows r := by
  have hcontents := contents_of_run h
  split at hcontents
  · rw [hcontents] at hnew
    cases hnew
  · obtain ⟨_, hnew', haccounts⟩ := hcontents
    rw [hnew'] at hnew
    cases hnew
    exact haccounts

end Query

end RowSql
