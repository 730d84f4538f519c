import RowSql.Proofs.Database.Memory

/-!
# Statements that find no row

An UPDATE or a DELETE that finds no row leaves the rows that it has read, and
these are written back whatever they are. So the file of the table may change,
but not what is loaded from it: rows that have been loaded can be stored, and
are then loaded as they were.

There is one thing that can be seen of it. A table without a file is read as one
without rows, and writing these back gives it a file. From then on it is among
the tables.
-/

namespace RowSql

/-! ## The rows that are left

A count of zero says that the filter accepted no row. What the statement leaves
is then, row by row, what it was given. -/

namespace Query

variable {ε : Type} {tables : Option (Tables ε)} {rows : List Record}
  {o : Outcome}

theorem forall_of_accepted_eq_nil {verdicts : List (Record × Bool)}
    (h : accepted verdicts = []) :
    ∀ v ∈ verdicts, v.2 = false := by
  intro v hv
  rw [accepted, List.map_eq_nil_iff, List.filter_eq_nil_iff] at h
  exact Bool.eq_false_iff.2 (h v hv)

theorem contents_of_update_none {s : Update} (h : update s rows = .ok o)
    (hcount : o.answer = .count 0) : o.contents = some rows := by
  obtain ⟨verdicts, hjudge, h⟩ := Statement.bind_eq_ok.1 h
  cases h
  have hnone :=
    forall_of_accepted_eq_nil
      (List.length_eq_zero_iff.1 (Answer.count.inj hcount))
  have hsame : ∀ v ∈ verdicts,
      (if v.2 then v.1.setAll (newFields s) else v.1) = v.1 :=
    fun v hv => by rw [hnone v hv]; rfl
  rw [List.map_congr_left hsame]
  exact congrArg some (map_fst_judge hjudge)

theorem contents_of_delete_none {s : Delete} (h : delete s rows = .ok o)
    (hcount : o.answer = .count 0) : o.contents = some rows := by
  obtain ⟨verdicts, hjudge, h⟩ := Statement.bind_eq_ok.1 h
  cases h
  have hnone :=
    forall_of_accepted_eq_nil
      (List.length_eq_zero_iff.1 (Answer.count.inj hcount))
  have hall : verdicts.filter (fun v => !v.2) = verdicts :=
    List.filter_eq_self.2 fun v hv => by rw [hnone v hv]; rfl
  rw [refused, hall]
  exact congrArg some (map_fst_judge hjudge)

/-- Only an UPDATE or a DELETE counts rows, and if there are none it leaves the
rows that it was given. -/
theorem contents_of_count_zero {s : Statement} (h : run tables s rows = .ok o)
    (hcount : o.answer = .count 0) :
    (s.kind = .update ∨ s.kind = .delete) ∧ o.contents = some rows := by
  cases s with
  | select s =>
      obtain ⟨source, _, h⟩ := Statement.bind_eq_ok.1 h
      obtain ⟨verdicts, _, h⟩ := Statement.bind_eq_ok.1 h
      obtain ⟨ordered, _, h⟩ := Statement.bind_eq_ok.1 h
      cases h
      cases hcount
  | insert s =>
      cases h
      cases hcount
  | update s =>
      exact ⟨.inl rfl, contents_of_update_none (of_mapError_eq_ok h) hcount⟩
  | delete s =>
      exact ⟨.inr rfl, contents_of_delete_none (of_mapError_eq_ok h) hcount⟩

end Query

/-! ## The tables that there are

The rows are written nevertheless. So the table is there afterwards, even where
it was not before, and the other tables are as they were. -/

namespace Store

variable {dir after : Directory} {table name : Text} {rows : List Record}

theorem fileName_mem_names_iff (h : Statement.IsName table) :
    fileName table ∈ dir.names ↔ table ∈ tables dir := by
  rw [mem_tables_iff]
  constructor
  · intro hmem
    exact ⟨_, hmem, tableOf?_fileName h⟩
  · rintro ⟨name, hname, htable⟩
    exact fileName_of_tableOf? htable ▸ hname

/-- Where rows have come into the file of a table, that is a file, and the
others are those that were there. -/
theorem mem_names_of_replaced (h : Replaced dir after table rows) :
    name ∈ after.names ↔ name = fileName table ∨ name ∈ dir.names := by
  by_cases hname : name = fileName table
  · obtain ⟨text, _, hread⟩ := h.file
    rw [hname, Directory.mem_names_iff]
    exact ⟨fun _ => .inl rfl, fun _ => ⟨_, hread⟩⟩
  · rw [Directory.mem_names_iff, h.others name hname, ← Directory.mem_names_iff]
    exact ⟨.inr, fun hmem => hmem.resolve_left hname⟩

theorem mem_tables_of_replaced (h : Replaced dir after table rows)
    (htable : Statement.IsName table) (other : Text) :
    other ∈ tables after ↔ other = table ∨ other ∈ tables dir := by
  rw [mem_tables_iff, mem_tables_iff]
  constructor
  · rintro ⟨name, hname, hother⟩
    rcases (mem_names_of_replaced h).1 hname with rfl | hname
    · rw [tableOf?_fileName htable] at hother
      exact .inl (Option.some.inj hother).symm
    · exact .inr ⟨name, hname, hother⟩
  · rintro (rfl | ⟨name, hname, hother⟩)
    · exact ⟨_, (mem_names_of_replaced h).2 (.inl rfl),
        tableOf?_fileName htable⟩
    · exact ⟨name, (mem_names_of_replaced h).2 (.inr hname), hother⟩

/-- The tables are the same if the one that has been written was among them. -/
theorem tables_eq_of_replaced (h : Replaced dir after table rows)
    (htable : Statement.IsName table) :
    tables after = tables dir ↔ table ∈ tables dir := by
  constructor
  · intro heq
    rw [← heq]
    exact (mem_tables_of_replaced h htable table).2 (.inl rfl)
  · intro hmem
    have hsame (other : Text) : other ∈ tables after ↔ other ∈ tables dir :=
      (mem_tables_of_replaced h htable other).trans
        (or_iff_right_of_imp fun heq => heq ▸ hmem)
    simp only [tables, List.mem_mergeSort] at hsame
    exact mergeSort_eq_of_perm
      ((List.perm_ext_iff_of_nodup (nodup_tables after) (nodup_tables dir)).2
        hsame)

end Store

namespace Database

variable {dir after : Directory} {t : Text} {values : Option (List Value)}

/-- An execution brings no table but that of its statement, which is a word. -/
theorem mem_tables_of_execute {table : Text}
    (h : table ∈ Store.tables (execute dir t values).2) :
    table ∈ Store.tables dir ∨ Statement.IsName table := by
  rcases execute_cases dir t values with ⟨e, hfail⟩ |
    ⟨s, o, after, hread, -, hdone, hafter⟩
  · rw [hfail] at h
    exact .inl h
  · rw [hdone] at h
    have hname := isName_of_read hread
    split at hafter
    · rw [hafter] at h
      exact .inl h
    · rcases (Store.mem_tables_of_replaced hafter hname table).1 h with
        rfl | hold
      · exact .inr hname
      · exact .inl hold

/-- An UPDATE or a DELETE that finds no row changes nothing in what is loaded:
every table has the rows that it had, or cannot be read for the same reason. The
tables that there are stay the same too, unless its own was not among them: that
one is new then. -/
theorem execute_count_zero
    (h : execute dir t values = (.ok (.count 0), after)) :
    ∃ s, read t values = .ok s ∧ (s.kind = .update ∨ s.kind = .delete) ∧
      (∀ table, Store.load after table = Store.load dir table) ∧
      (Store.tables after = Store.tables dir ↔ s.table ∈ Store.tables dir) ∧
      ∀ table, table ∈ Store.tables after ↔
        table = s.table ∨ table ∈ Store.tables dir := by
  rcases execute_cases dir t values with ⟨e, hfail⟩ |
    ⟨s, o, dir', hread, hrun, hdone, hafter⟩
  · cases hfail.symm.trans h
  · obtain ⟨hanswer, rfl⟩ := Prod.mk.inj (hdone.symm.trans h)
    obtain ⟨rows, hload, hquery⟩ := exists_of_run hrun
    obtain ⟨hkind, hcontents⟩ :=
      Query.contents_of_count_zero hquery (Except.ok.inj hanswer)
    rw [hcontents] at hafter
    have hreplaced : Replaced dir dir' s.table rows := hafter
    have htable := isName_of_read hread
    refine ⟨s, hread, hkind, fun table => ?_,
      Store.tables_eq_of_replaced hreplaced htable,
      Store.mem_tables_of_replaced hreplaced htable⟩
    by_cases hown : table = s.table
    · rw [hown, hload]
      exact Store.load_of_replaced hreplaced (Store.storable_of_load hload)
    · exact Store.load_of_replaced_of_ne hreplaced hown

/-- A table whose file is not laid out as it would be written, beside one that
is broken. -/
def unevenDirectory : Directory :=
  (Directory.empty.write "t.json".toText
    (Utf8.encode "[\x7b\"a\":1.50\x7d\r\n]".toText)).write
    "u.json".toText (Utf8.encode "?".toText)

def foundNoneText : Text := "DELETE FROM t WHERE a = 2".toText

/-- Nothing can be seen of a DELETE that finds no row in it. -/
theorem execute_count_zero_unevenDirectory :
    ∃ after,
      execute unevenDirectory foundNoneText none = (.ok (.count 0), after) ∧
      (∀ table, Store.load after table = Store.load unevenDirectory table) ∧
      Store.tables after = Store.tables unevenDirectory := by
  have hrun :
      (run unevenDirectory (.delete ⟨"t".toText, some "a = 2".toText⟩)).map
        Outcome.answer =
        .ok (.count 0) := by decide +kernel
  obtain ⟨o, ho, hanswer⟩ := map_eq_ok hrun
  have hread :
      read foundNoneText none =
        .ok (.delete ⟨"t".toText, some "a = 2".toText⟩) := by rfl
  obtain ⟨after, hexecute, _⟩ := execute_of_run hread ho
  rw [hanswer] at hexecute
  obtain ⟨s, hs, _, hload, htables, _⟩ := execute_count_zero hexecute
  cases hread.symm.trans hs
  have hmem : "t".toText ∈ Store.tables unevenDirectory :=
    (Store.fileName_mem_names_iff (by decide)).1 (by decide)
  exact ⟨after, hexecute, hload, htables.2 hmem⟩

/-- An UPDATE of a table without a file, that finds no row. -/
def updateNoneText : Text := "UPDATE t SET a = 1 WHERE b = 2".toText

/-- It adds the table to those that there are. -/
theorem execute_updateNone :
    ∃ after, execute .empty updateNoneText none = (.ok (.count 0), after) ∧
      Store.tables .empty = [] ∧ Store.tables after = ["t".toText] :=
  ⟨Directory.empty.write "t.json".toText (Utf8.encode "[]".toText), by rfl,
    List.mergeSort_nil, List.mergeSort_singleton _⟩

end Database

end RowSql
