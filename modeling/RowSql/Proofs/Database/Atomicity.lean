import RowSql.Proofs.Database.Stored
import RowSql.Proofs.Store.Table

/-!
# All or nothing

A statement that fails leaves every file as it was, at whatever step it fails,
and a SELECT leaves them in any case. A statement that writes leaves the new
rows in the file of its own table, and every other file as it was; so no
temporary file is left in any case.
-/

namespace RowSql

/-- Rows have come into the file of a table, and into no other. -/
structure Replaced (dir after : Directory) (table : Text) (rows : List Record) :
    Prop where
  file : ∃ text, Json.writeRows rows = .ok text ∧
    after.read? (Store.fileName table) = some (Utf8.encode text)
  others : ∀ name, name ≠ Store.fileName table →
    after.read? name = dir.read? name

namespace Store

variable {dir : Directory} {table : Text} {rows : List Record}

theorem replaced_write {text : Text} (h : Json.writeRows rows = .ok text) :
    Replaced dir (dir.write (fileName table) (Utf8.encode text)) table rows :=
  ⟨⟨text, h, dir.read?_write _ _⟩, fun _ hne => dir.read?_write_of_ne hne _⟩

/-- Rows are replaced, or the directory is what it was. -/
theorem replace_eq (dir : Directory) (table : Text) (rows : List Record) :
    (∃ e, replace dir table rows = (.error e, dir)) ∨
      ∃ after, replace dir table rows = (.ok (), after) ∧
        Replaced dir after table rows := by
  cases h : Json.writeRows rows with
  | error e => exact .inl ⟨_, replace_of_error h dir table⟩
  | ok text => exact .inr ⟨_, replace_of_ok h dir table, replaced_write h⟩

/-- Storable rows are loaded from the file that they have come into. -/
theorem load_of_replaced {after : Directory} (h : Replaced dir after table rows)
    (hrows : ∀ r ∈ rows, r.Storable) : load after table = .ok rows := by
  obtain ⟨text, htext, hread⟩ := h.file
  obtain ⟨saved, hsave, hload⟩ := exists_save hrows dir table
  rw [save_eq, htext] at hsave
  cases hsave
  rw [load, dir.read?_write] at hload
  rw [load, hread]
  exact hload

theorem load_of_replaced_of_ne {after : Directory} {other : Text}
    (h : Replaced dir after table rows) (hne : other ≠ table) :
    load after other = load dir other := by
  rw [load, load, h.others _ fun heq => hne (fileName_inj heq)]

end Store

namespace Database

variable {dir : Directory} {t : Text} {values : Option (List Value)}
  {s : Statement} {o : Outcome}

/-- A text with values is read as what is parsed when they are bound. -/
theorem read_of_bind {u : Text} {values : List Value}
    (hbind : Binding.bind t values = .ok u)
    (hparse : Statement.parse u = .ok s) : read t (some values) = .ok s := by
  simp only [read, hbind, hparse]
  rfl

/-- A statement that has been run found the rows of its table. -/
theorem exists_of_run (h : run dir s = .ok o) :
    ∃ rows, Store.load dir s.table = .ok rows ∧
      Query.run (some (Store.load dir)) s rows = .ok o := by
  rw [run] at h
  split at h
  · next rows hrows => exact ⟨rows, hrows, Query.of_mapError_eq_ok h⟩
  · cases h

/-- The new rows of a statement of characters can be stored. -/
theorem storable_of_run (hread : read t values = .ok s) (h : run dir s = .ok o)
    (ht : t.OfChars) (hvalues : ∀ v ∈ values.getD [], v.OfChars)
    {new : List Record} (hnew : o.contents = some new) :
    ∀ r ∈ new, r.Storable := by
  obtain ⟨rows, hload, hrun⟩ := exists_of_run h
  have haccounts := Query.accounts_of_run hrun hnew
  exact fun r hr =>
    storable_of_accounts hread ht hvalues (Store.storable_of_load hload)
    (haccounts r hr)

/-- What is committed is all that changes: nothing, or the rows of one table. -/
theorem commit_eq (dir : Directory) (table : Text) (o : Outcome) :
    (∃ e, commit dir table o = (.error e, dir)) ∨
      (o.contents = none ∧ commit dir table o = (.ok (), dir)) ∨
      ∃ new after, o.contents = some new ∧
        commit dir table o = (.ok (), after) ∧
        Replaced dir after table new := by
  rw [commit]
  cases hnew : o.contents with
  | none => exact .inr (.inl ⟨rfl, rfl⟩)
  | some new =>
      rcases Store.replace_eq dir table new with ⟨e, hfail⟩ |
        ⟨after, hdone, hreplaced⟩
      · refine .inl ⟨.store e, ?_⟩
        simp only [hfail]
        rfl
      · refine .inr (.inr ⟨new, after, rfl, ?_, hreplaced⟩)
        simp only [hdone]
        rfl

/-- Everything an execution can come to: an error and the directory as it was,
or the answer of a statement that has been read and run, with the rows that it
leaves in the file of its table. -/
theorem execute_cases (dir : Directory) (t : Text)
    (values : Option (List Value)) :
    (∃ e, execute dir t values = (.error e, dir)) ∨
      ∃ s o after, read t values = .ok s ∧ run dir s = .ok o ∧
        execute dir t values = (.ok o.answer, after) ∧
        match o.contents with
        | none => after = dir
        | some new => Replaced dir after s.table new := by
  rw [execute]
  cases hread : read t values with
  | error e => exact .inl ⟨e, rfl⟩
  | ok s =>
      cases hrun : run dir s with
      | error e => exact .inl ⟨e, by simp only [hrun]⟩
      | ok o =>
          rcases commit_eq dir s.table o with ⟨e, hfail⟩ | ⟨hnone, hdone⟩ |
            ⟨new, after, hnew, hdone, hreplaced⟩
          · refine .inl ⟨e, ?_⟩
            simp only [hrun, hfail]
            rfl
          · refine .inr ⟨s, o, dir, rfl, hrun, ?_, ?_⟩
            · simp only [hrun, hdone]
              rfl
            · rw [hnone]
          · refine .inr ⟨s, o, after, rfl, hrun, ?_, ?_⟩
            · simp only [hrun, hdone]
              rfl
            · rw [hnew]
              exact hreplaced

/-- The rows that a statement leaves can be written, since nothing but texts has
come to what was loaded. -/
theorem exists_text_of_run (h : run dir s = .ok o) {new : List Record}
    (hnew : o.contents = some new) : ∃ text, Json.writeRows new = .ok text := by
  obtain ⟨rows, hload, hrun⟩ := exists_of_run h
  refine Json.exists_text_of_fields fun r hr f hf => ?_
  rcases Query.accounts_of_run hrun hnew r hr f hf with ⟨r', hr', hf'⟩ |
    ⟨w, _, rfl⟩
  · have hstorable := (Store.storable_of_load hload r' hr' f hf').2
    exact (Json.exists_writeValue hstorable 4).imp fun _ ht => ht.1
  · exact ⟨_, rfl⟩

/-- A statement that has been run succeeds. -/
theorem execute_of_run (hread : read t values = .ok s) (h : run dir s = .ok o) :
    ∃ after, execute dir t values = (.ok o.answer, after) ∧
      match o.contents with
      | none => after = dir
      | some new => Replaced dir after s.table new := by
  rw [execute, hread]
  simp only [h]
  cases hnew : o.contents with
  | none => exact ⟨dir, by simp only [commit, hnew]; rfl, rfl⟩
  | some new =>
      obtain ⟨text, htext⟩ := exists_text_of_run h hnew
      refine ⟨_, ?_, Store.replaced_write htext⟩
      simp only [commit, hnew, Store.replace_of_ok htext]
      rfl

/-- A failed execution leaves the directory as it was, and so does a SELECT. Any
other leaves its new rows in the file of its table and all other files as they
were, and the rows are loaded from there if the statement and its values are of
characters. Rows that are saved directly are all written, or leave the directory
as it was. -/
theorem all_or_nothing (dir : Directory) :
    (∀ t values, match execute dir t values with
      | (.error _, after) => after = dir
      | (.ok answer, after) =>
          ∃ s o, read t values = .ok s ∧ run dir s = .ok o ∧
            o.answer = answer ∧
            if s.kind = .select then after = dir
          else ∃ new, o.contents = some new ∧ Replaced dir after s.table new ∧
            (t.OfChars → (∀ v ∈ values.getD [], v.OfChars) →
              Store.load after s.table = .ok new)) ∧
    ∀ table rows, match Store.replace dir table rows with
      | (.error _, after) => after = dir
      | (.ok _, after) => Replaced dir after table rows := by
  constructor
  · intro t values
    rcases execute_cases dir t values with ⟨e, hfail⟩ |
      ⟨s, o, after, hread, hrun, hdone, hafter⟩
    · rw [hfail]
    · rw [hdone]
      refine ⟨s, o, hread, hrun, rfl, ?_⟩
      obtain ⟨rows, _, hquery⟩ := exists_of_run hrun
      have hcontents := Query.contents_of_run hquery
      split at hcontents
      · next hkind =>
          rw [hcontents] at hafter
          rw [if_pos hkind]
          exact hafter
      · next hkind =>
          obtain ⟨new, hnew, _⟩ := hcontents
          rw [hnew] at hafter
          rw [if_neg hkind]
          exact ⟨new, hnew, hafter, fun ht hvalues =>
            Store.load_of_replaced hafter
              (storable_of_run hread hrun ht hvalues hnew)⟩
  · intro table rows
    rcases Store.replace_eq dir table rows with ⟨e, hfail⟩ |
      ⟨after, hdone, hreplaced⟩
    · rw [hfail]
    · rw [hdone]
      exact hreplaced

end Database

end RowSql
