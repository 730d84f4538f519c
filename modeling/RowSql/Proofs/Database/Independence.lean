import RowSql.Proofs.Database.Atomicity
import RowSql.Proofs.Statement.Printing

/-!
# Statements that do not meet

A statement looks up the tables that it names and no others, and it writes one
file at most, that of its own table. So what it comes to, and what it writes, is
decided by the files of the tables that it names, whatever else is in the
directory. Two statements neither of which writes to a table that the other one
names then do not see which of them was executed first.
-/

namespace RowSql

theorem Directory.write_comm {name other : Text} (h : other ≠ name)
    (dir : Directory) (bytes bytes' : Bytes) :
    (dir.write name bytes).write other bytes' =
      (dir.write other bytes').write name bytes := by
  refine ext_read? fun file => ?_
  by_cases hname : file = name
  · subst hname
    rw [read?_write, read?_write_of_ne _ h.symm, read?_write]
  · rw [read?_write_of_ne _ hname]
    by_cases hother : file = other
    · rw [hother, read?_write, read?_write]
    · rw [read?_write_of_ne _ hother, read?_write_of_ne _ hother,
        read?_write_of_ne _ hname]

namespace Statement

/-- The tables that a statement names: its own, and those that are joined to
it. -/
def tables (s : Statement) : List Text :=
  s.table :: s.joinedTables

/-- A statement writes to a table that another one names. -/
def Disturbs (s u : Statement) : Prop :=
  s.kind ≠ .select ∧ s.table ∈ u.tables

end Statement

/-! ## What is looked up

A statement looks up its own table and those that it joins, and of the directory
nothing else. So two directories with the same files for these are the same to
it. -/

namespace Query

variable {ε : Type} {tables tables' : Tables ε} {s : Statement}

theorem joinAll_congr {joins : List Join}
    (h : ∀ join ∈ joins, tables join.table = tables' join.table)
    (rows : List Record) :
    joinAll tables joins rows = joinAll tables' joins rows := by
  induction joins generalizing rows with
  | nil => rfl
  | cons join joins ih =>
      rw [List.forall_mem_cons] at h
      have hstep : joinStep tables join rows = joinStep tables' join rows := by
        rw [joinStep, joinStep, h.1]
      rw [joinAll, joinAll, hstep]
      cases joinStep tables' join rows with
      | error e => rfl
      | ok next => exact ih h.2 next

/-- A statement is run in the same way where the tables joined to it are the
same. -/
theorem run_congr (h : ∀ table ∈ s.joinedTables, tables table = tables' table)
    (rows : List Record) :
    run (some tables) s rows = run (some tables') s rows := by
  cases s with
  | select s =>
      have hjoins : ∀ join ∈ s.joins, tables join.table = tables' join.table :=
        fun join hjoin => h _ (List.mem_map_of_mem hjoin)
      have hsource :
          sourceRows (some tables) s rows =
            sourceRows (some tables') s rows := by
        rw [sourceRows.eq_def, sourceRows.eq_def]
        cases hlist : s.joins with
        | nil => rfl
        | cons join joins =>
            rw [hlist] at hjoins
            exact joinAll_congr hjoins _
      simp only [run, select, hsource]
  | insert s => rfl
  | update s => rfl
  | delete s => rfl

end Query

namespace Database

variable {dir dir' : Directory} {t u : Text}
  {values values' : Option (List Value)} {s s' : Statement}

/-- The files of the tables that a statement names are the same in two
directories. -/
def SameFor (s : Statement) (dir dir' : Directory) : Prop :=
  ∀ table ∈ s.tables,
  dir.read? (Store.fileName table) = dir'.read? (Store.fileName table)

theorem SameFor.load (h : SameFor s dir dir') :
    ∀ table ∈ s.tables, Store.load dir table = Store.load dir' table := by
  intro table htable
  rw [Store.load, Store.load, h table htable]

theorem SameFor.run_eq (h : SameFor s dir dir') : run dir s = run dir' s := by
  have htable := h.load s.table List.mem_cons_self
  rw [run, run, htable]
  cases Store.load dir' s.table with
  | error e => rfl
  | ok rows =>
      simp only [Query.run_congr
        (fun table hjoined => h.load table (List.mem_cons_of_mem _ hjoined))
          rows]

/-! ## What is written

A statement writes one file at most, that of its own table, with contents that
depend on what it looked up. The journal of a commit is not looked into; it
comes to putting that file. -/

/-- The directory in which a file has been written, if there is one to write. -/
def put (dir : Directory) (file : Option (Text × Bytes)) : Directory :=
  file.elim dir fun f => dir.write f.1 f.2

/-- A file is that of a table, of a statement that is not a SELECT. -/
def WrittenBy (s : Statement) (f : Text × Bytes) : Prop :=
  s.kind ≠ .select ∧ f.1 = Store.fileName s.table

/-- What is committed depends on the outcome alone: what it comes to, and the
one file that it may write. -/
theorem commit_eq_put (table : Text) (o : Outcome) :
    ∃ result file,
    (∀ f ∈ file, o.contents ≠ none ∧ f.1 = Store.fileName table) ∧
      ∀ dir, commit dir table o = (result, put dir file) := by
  cases hnew : o.contents with
  | none => exact ⟨.ok (), none, nofun, fun dir => by rw [commit, hnew]; rfl⟩
  | some new =>
      cases hwrite : Json.writeRows new with
      | error e =>
          refine ⟨.error (.store (.unwritable e)), none, nofun, fun dir => ?_⟩
          simp only [commit, hnew, Store.replace_of_error hwrite]
          rfl
      | ok text =>
          refine ⟨.ok (), some (Store.fileName table, Utf8.encode text), ?_,
            fun dir => ?_⟩
          · rintro f ⟨⟩
            exact ⟨Option.some_ne_none new, rfl⟩
          · simp only [commit, hnew, Store.replace_of_ok hwrite]
            rfl

/-- What a statement comes to and what it writes is the same from every
directory with the same files for the tables that it names. A text that is not
read writes nothing. -/
theorem exists_effect (dir : Directory) (t : Text)
    (values : Option (List Value)) :
    ∃ result file, (∀ f ∈ file, ∃ s, read t values = .ok s ∧ WrittenBy s f) ∧
      ∀ dir', (∀ s, read t values = .ok s → SameFor s dir dir') →
        execute dir' t values = (result, put dir' file) := by
  cases hread : read t values with
  | error e =>
      exact ⟨.error e, none, nofun, fun dir' _ => by rw [execute, hread]; rfl⟩
  | ok s =>
      cases hrun : run dir s with
      | error e =>
          refine ⟨.error e, none, nofun, fun dir' hsame => ?_⟩
          rw [execute, hread]
          simp only [← (hsame s rfl).run_eq, hrun]
          rfl
      | ok o =>
          obtain ⟨result, file, hfile, hcommit⟩ := commit_eq_put s.table o
          refine ⟨result.map fun _ => o.answer, file,
            fun f hf => ⟨s, rfl, ?_, (hfile f hf).2⟩, fun dir' hsame => ?_⟩
          · intro hkind
            obtain ⟨rows, _, hquery⟩ := exists_of_run hrun
            have hcontents := Query.contents_of_run hquery
            rw [if_pos hkind] at hcontents
            exact (hfile f hf).1 hcontents
          · rw [execute, hread]
            simp only [← (hsame s rfl).run_eq, hrun, hcommit]

/-! ## Either order

Where neither statement writes what the other looks up, each finds its files as
it would find them alone, and two files put under different names are put in
either order. -/

/-- Neither of two texts is read as a statement that writes to a table which the
other one names. -/
structure Independent (t : Text) (values : Option (List Value)) (u : Text)
    (values' : Option (List Value)) : Prop where
  first : ∀ s s', read t values = .ok s → read u values' = .ok s' →
    ¬ s.Disturbs s'
  second : ∀ s s', read t values = .ok s → read u values' = .ok s' →
    ¬ s'.Disturbs s

theorem sameFor_put {file : Option (Text × Bytes)}
    (h : ∀ f ∈ file, ∀ table ∈ s.tables,
    Store.fileName table ≠ f.1) (dir : Directory) :
      SameFor s dir (put dir file) := by
  intro table htable
  cases file with
  | none => rfl
  | some f => exact (dir.read?_write_of_ne (h f rfl table htable) f.2).symm

/-- A file that a statement writes is none of those that an undisturbed one
looks up. -/
theorem ne_of_writtenBy {f : Text × Bytes} (h : WrittenBy s f)
    (hs : ¬ s.Disturbs s') :
    ∀ table ∈ s'.tables, Store.fileName table ≠ f.1 := by
  intro table htable heq
  have htables : table = s.table := Store.fileName_inj (heq.trans h.2)
  exact hs ⟨h.1, htables ▸ htable⟩

theorem put_comm {file file' : Option (Text × Bytes)}
    (h : ∀ f ∈ file, ∀ f' ∈ file', f'.1 ≠ f.1) (dir : Directory) :
    put (put dir file) file' = put (put dir file') file := by
  cases file with
  | none => rfl
  | some f =>
      cases file' with
      | none => rfl
      | some f' => exact Directory.write_comm (h f rfl f' rfl) dir f.2 f'.2

/-- Two statements neither of which writes to a table of the other come to the
same in either order, each to what it comes to alone, and leave the same
directory. What a statement comes to depends on the files of the tables that it
names, and on nothing else in the directory. -/
theorem execute_comm (dir : Directory) (h : Independent t values u values') :
    (execute (execute dir t values).2 u values').1 = (execute dir u values').1 ∧
      (execute (execute dir u values').2 t values).1 =
        (execute dir t values).1 ∧
      (execute (execute dir t values).2 u values').2 =
        (execute (execute dir u values').2 t values).2 ∧
      ∀ dir', (∀ s, read t values = .ok s → SameFor s dir dir') →
        (execute dir' t values).1 = (execute dir t values).1 := by
  obtain ⟨result, file, hfile, ht⟩ := exists_effect dir t values
  obtain ⟨result', file', hfile', hu⟩ := exists_effect dir u values'
  have hthere : ∀ s', read u values' = .ok s' →
      SameFor s' dir (put dir file) := by
    refine fun s' hs' => sameFor_put (fun f hf => ?_) dir
    obtain ⟨s, hs, hwritten⟩ := hfile f hf
    exact ne_of_writtenBy hwritten (h.first s s' hs hs')
  have hback : ∀ s, read t values = .ok s → SameFor s dir (put dir file') := by
    refine fun s hs => sameFor_put (fun f hf => ?_) dir
    obtain ⟨s', hs', hwritten⟩ := hfile' f hf
    exact ne_of_writtenBy hwritten (h.second s s' hs hs')
  have hne : ∀ f ∈ file, ∀ f' ∈ file', f'.1 ≠ f.1 := by
    intro f hf f' hf'
    obtain ⟨s, hs, hwritten⟩ := hfile f hf
    obtain ⟨s', hs', hwritten'⟩ := hfile' f' hf'
    rw [hwritten'.2]
    exact ne_of_writtenBy hwritten (h.first s s' hs hs') s'.table
      List.mem_cons_self
  rw [ht dir fun _ _ _ _ => rfl, hu dir fun _ _ _ _ => rfl]
  simp only [ht _ hback, hu _ hthere]
  exact ⟨trivial, trivial, put_comm hne dir,
    fun dir' hsame => by rw [ht dir' hsame]⟩

/-! ## A row added beside a broken table

One of the statements may well fail: here it joins a table whose file is no
JSON, and still takes part in nothing that the other does. -/

/-- A directory in which the file of a table is not JSON. -/
def brokenTable : Directory :=
  Directory.empty.write "v.json".toText (Utf8.encode "?".toText)

/-- A statement that joins the table. -/
def brokenJoin : Select where
  table := "u".toText
  columns := ["*".toText]
  joins := [⟨.left, "v".toText, "u.id".toText, "v.id".toText⟩]
  filter := none
  order := none
  limit := none

def brokenJoinText : Text := "SELECT * FROM u LEFT JOIN v ON u.id = v.id".toText

theorem read_brokenJoin :
    read brokenJoinText none = .ok (.select brokenJoin) := by
  have hprintable : brokenJoin.IsPrintable := {
    table := by decide
    nonempty := by decide
    columns := by decide
    joins := fun j hj => by
      rw [List.mem_singleton.1 hj]
      exact ⟨by decide, by decide, by decide, "id".toText, rfl, by decide⟩
    filter := fun w hw => nomatch hw
    order := fun o ho => nomatch ho
    limit := fun n hn => nomatch hn }
  have hprints : Statement.Prints (.select brokenJoin)
      (Statement.Kind.select.word ++ .char ' ' ::
        "* FROM u LEFT JOIN v ON u.id = v.id".toText) :=
    .select hprintable
  have hparse :=
    Statement.parse_of_readAs .select (hprints.bare_eq (.plain (by decide)))
      (hprints.readAs_eq.1 fun hmistake => nomatch hmistake.2.choose_spec.1)
  exact congrArg (Except.mapError DatabaseError.parse) hparse

/-- A statement that adds a row to another table. -/
def addedRowText : Text := "INSERT INTO t (a) VALUES (?)".toText

def addedRowValues : Option (List Value) := some [.text "x".toText]

/-- It does not matter whether the row is added before or after the SELECT
fails. -/
theorem execute_comm_brokenTable :
    Independent addedRowText addedRowValues brokenJoinText none ∧
      (execute (execute brokenTable addedRowText addedRowValues).2
          brokenJoinText none).1 =
        .error (.store (.corrupt "v".toText .expectingValue "?".toText 0)) ∧
      (execute (execute brokenTable brokenJoinText none).2 addedRowText
          addedRowValues).1 =
        .ok (.record (.ofFields [("a".toText, .text "x".toText)])) ∧
      (execute (execute brokenTable addedRowText addedRowValues).2
          brokenJoinText none).2 =
        (execute (execute brokenTable brokenJoinText none).2 addedRowText
          addedRowValues).2 := by
  have hinsert : read addedRowText addedRowValues =
      .ok (.insert ⟨"t".toText, ["a".toText], ["x".toText]⟩) := rfl
  have hindependent :
      Independent addedRowText addedRowValues brokenJoinText none := by
    constructor <;> intro s s' hs hs'
    · cases hinsert.symm.trans hs
      cases read_brokenJoin.symm.trans hs'
      exact fun h => absurd h.2 (by decide)
    · cases read_brokenJoin.symm.trans hs'
      exact fun h => h.1 rfl
  obtain ⟨hlast, hfirst, hafter, _⟩ := execute_comm brokenTable hindependent
  refine ⟨hindependent, hlast.trans ?_, hfirst.trans (by decide +kernel),
    hafter⟩
  rw [execute, read_brokenJoin]
  decide +kernel

end Database

end RowSql
