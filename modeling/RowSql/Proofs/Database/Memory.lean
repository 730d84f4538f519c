import Mathlib.Data.List.Nodup
import RowSql.Facade
import RowSql.Proofs.Database.Atomicity
import RowSql.Proofs.Query.Textual

/-!
# A database without files

A database in memory knows the rows of each table that has been written, and
nothing else. It reads and runs statements like the one in files, with no file
in between. Asked the same, from the beginning on, the two give the same
replies: the rows that have been written are of texts, so they are stored and
loaded as they are, and no statement that can be read fails.
-/

namespace RowSql

/-! ## The database in memory

A memory holds the rows of tables by name and runs statements on them. There are
no files and nothing can fail in it, so it is what the database is to be
compared with. -/

/-- The rows of the tables that have been written. -/
structure Memory where
  contents : Named (List Record)
  distinct : contents.names.Nodup

namespace Memory

/-- No table has been written. -/
def empty : Memory := ⟨[], List.nodup_nil⟩

/-- The rows of a table. One that has not been written has none. -/
def rows (m : Memory) (table : Text) : List Record :=
  (m.contents.get? table).getD []

/-- Sets the rows of a table. -/
def write (m : Memory) (table : Text) (rows : List Record) : Memory :=
  ⟨m.contents.set table rows, Named.nodup_set m.distinct table rows⟩

/-- The tables that have been written, in order. -/
def tables (m : Memory) : List Text :=
  m.contents.names.mergeSort fun a b => decide (a ≤ b)

/-- Looks up the rows of a table, which never fails. -/
def lookup (m : Memory) : Tables StoreError :=
  fun table => .ok (m.rows table)

/-- Runs a statement on the rows of its table. -/
def run (m : Memory) (s : Statement) : Except DatabaseError Outcome :=
  (Query.run (some m.lookup) s (m.rows s.table)).mapError
    QueryError.toDatabaseError

/-- Executes a statement: what it answers, and the tables after it. -/
def execute (m : Memory) (t : Text) (values : Option (List Value)) :
    Except DatabaseError Answer × Memory :=
  match Database.read t values with
  | .error e => (.error e, m)
  | .ok s =>
    match m.run s with
    | .error e => (.error e, m)
    | .ok o => (.ok o.answer, o.contents.elim m (m.write s.table))

/-- The reply to a request, and the tables after it. -/
def answer (m : Memory) : Database.Request → Database.Reply × Memory
  | .execute t values => (m.execute t values).map .answer id
  | .query t values => (m.execute t values).map .ofQuery id
  | .tables => (.tables m.tables, m)
  | .reopen => (.opened, m)

/-- The replies to requests, one after the other, and the tables after them. -/
def answers (m : Memory) : List Database.Request → List Database.Reply × Memory
  | [] => ([], m)
  | q :: qs =>
    let (reply, m) := m.answer q
    let (replies, m) := answers m qs
    (reply :: replies, m)

variable {m : Memory} {table other : Text} {new : List Record}

theorem rows_write : (m.write table new).rows table = new := by
  rw [rows, write, Named.get?_set, Option.getD_some]

theorem rows_write_of_ne (h : other ≠ table) :
    (m.write table new).rows other = m.rows other := by
  rw [rows, write, Named.get?_set_of_ne h, rows]

end Memory

/-! ## The names of tables

A table is listed by the name of its file, and two tables do not share one. So
the listing of the directory is the listing of the memory in some order, and
sorting takes the order away. -/

namespace Store

variable {dir : Directory} {name table : Text}

/-- The file of a table whose name is made of characters of words is known as
its file. -/
theorem tableOf?_fileName (h : Statement.IsName table) :
    tableOf? (fileName table) = some table := by
  obtain ⟨c, s, rfl⟩ := List.exists_cons_of_ne_nil h.ne_nil
  have hsuffix : suffix.isSuffixOf (fileName (c :: s)) = true :=
    List.isSuffixOf_iff_suffix.2 (List.suffix_append _ _)
  have hhidden : ((fileName (c :: s)).head? != some (.char '.')) = true := by
    rw [bne_iff_ne]
    intro hhead
    have hdot : c = CodePoint.char '.' := Option.some.inj hhead
    exact absurd (h.word c List.mem_cons_self) (by rw [hdot]; decide)
  have htake :
      (fileName (c :: s)).take ((fileName (c :: s)).length - suffix.length) =
        c :: s := by
    rw [fileName, List.length_append, Nat.add_sub_cancel, List.take_left]
  rw [tableOf?, hsuffix, hhidden, Bool.and_self, if_pos rfl, htake]

theorem nodup_names (dir : Directory) : dir.names.Nodup := by
  refine List.pairwise_map.2 (dir.ordered.imp fun {f g} hlt heq => ?_)
  rw [heq] at hlt
  exact List.lt_irrefl g.1 hlt

/-- No table is named twice. -/
theorem nodup_tables (dir : Directory) :
    (dir.names.filterMap tableOf?).Nodup := by
  refine List.Nodup.filterMap (fun a b table ha hb => ?_) (nodup_names dir)
  rw [← fileName_of_tableOf? ha, ← fileName_of_tableOf? hb]

end Store

/-- Texts that are put in order are known by which ones they are. -/
theorem mergeSort_eq_of_perm {ts us : List Text} (h : ts.Perm us) :
    (ts.mergeSort fun a b => decide (a ≤ b)) = us.mergeSort fun a b =>
    decide (a ≤ b) := by
  have htrans (a b c : Text) (hab : decide (a ≤ b) = true)
      (hbc : decide (b ≤ c) = true) :
      decide (a ≤ c) = true :=
    decide_eq_true
      (List.le_trans (of_decide_eq_true hab) (of_decide_eq_true hbc))
  have htotal (a b : Text) : (decide (a ≤ b) || decide (b ≤ a)) = true := by
    rw [Bool.or_eq_true, decide_eq_true_iff, decide_eq_true_iff]
    exact List.le_total a b
  have hsorted := List.pairwise_mergeSort htrans htotal
  refine List.Perm.eq_of_pairwise (fun a b _ _ hab hba => ?_) (hsorted ts)
    (hsorted us)
    ((List.mergeSort_perm ts _).trans (h.trans (List.mergeSort_perm us _).symm))
  exact List.le_antisymm (of_decide_eq_true hab) (of_decide_eq_true hba)

/-! ## Files that hold the tables in memory

A directory holds a memory when the files of its tables, and no others, are
there, and each loads as the rows in memory. It is kept by writing rows of
texts, and every other step leaves directory and memory alone. -/

/-- The files of a directory are those of the tables in memory, and hold their
rows, which are of texts. -/
structure Holds (dir : Directory) (m : Memory) : Prop where
  load : ∀ table, Store.load dir table = .ok (m.rows table)
  files : ∀ name, name ∈ dir.names ↔
    ∃ table ∈ m.contents.names, Store.fileName table = name
  named : ∀ table ∈ m.contents.names, Statement.IsName table
  textual : ∀ table, Query.Textual (m.rows table)

namespace Holds

variable {dir after : Directory} {m : Memory} {t table : Text}
  {values : Option (List Value)} {new : List Record}

theorem empty : Holds .empty .empty where
  load _ := rfl
  files _ := ⟨nofun, nofun⟩
  named _ := nofun
  textual _ _ := nofun

/-- The tables of a directory are those in memory. -/
theorem tables_eq (h : Holds dir m) : Store.tables dir = m.tables := by
  refine mergeSort_eq_of_perm
    ((List.perm_ext_iff_of_nodup (Store.nodup_tables dir) m.distinct).2
    fun table => ?_)
  rw [List.mem_filterMap]
  constructor
  · rintro ⟨name, hname, htable⟩
    obtain ⟨other, hother, rfl⟩ := (h.files name).1 hname
    rw [Store.tableOf?_fileName (h.named other hother)] at htable
    exact Option.some.inj htable ▸ hother
  · intro htable
    exact ⟨_, (h.files _).2 ⟨table, htable, rfl⟩,
      Store.tableOf?_fileName (h.named table htable)⟩

/-- Rows of texts that come into the file of a table come into memory as
well. -/
theorem write (h : Holds dir m) (hreplaced : Replaced dir after table new)
    (hname : Statement.IsName table) (htextual : Query.Textual new)
    (hstorable : ∀ r ∈ new, r.Storable) : Holds after (m.write table new) where
  load other := by
    by_cases hne : other = table
    · rw [hne, Memory.rows_write, Store.load_of_replaced hreplaced hstorable]
    · rw [Memory.rows_write_of_ne hne,
        Store.load_of_replaced_of_ne hreplaced hne, h.load]
  files name := by
    have hsame (hne : name ≠ Store.fileName table) :
        name ∈ after.names ↔ name ∈ dir.names := by
      rw [Directory.mem_names_iff, Directory.mem_names_iff,
        hreplaced.others name hne]
    simp only [Memory.write, Named.mem_names_set]
    constructor
    · intro hmem
      by_cases hne : name = Store.fileName table
      · exact ⟨table, .inl rfl, hne.symm⟩
      · obtain ⟨other, hother, heq⟩ := (h.files name).1 ((hsame hne).1 hmem)
        exact ⟨other, .inr hother, heq⟩
    · rintro ⟨other, hother, rfl⟩
      by_cases hne : other = table
      · obtain ⟨text, _, hread⟩ := hreplaced.file
        exact hne ▸ Directory.mem_names_iff.2 ⟨_, hread⟩
      · exact (hsame fun heq => hne (Store.fileName_inj heq)).2
          ((h.files _).2 ⟨other, hother.resolve_left hne, rfl⟩)
  named other hother := by
    rcases Named.mem_names_set.1 hother with rfl | hother
    · exact hname
    · exact h.named other hother
  textual other := by
    by_cases hne : other = table
    · rw [hne, Memory.rows_write]
      exact htextual
    · rw [Memory.rows_write_of_ne hne]
      exact h.textual other

/-- A statement has the same outcome on files and in memory. -/
theorem run_eq (h : Holds dir m) (s : Statement) :
    Database.run dir s = m.run s := by
  have hlookup : Store.load dir = m.lookup := funext h.load
  rw [Database.run, h.load, hlookup]
  rfl

/-- Every statement has an outcome. -/
theorem exists_run (h : Holds dir m) (s : Statement) :
    ∃ o, m.run s = .ok o := by
  obtain ⟨o, ho⟩ :=
    Query.exists_run (ε := StoreError) h.textual s (h.textual s.table)
  refine ⟨o, ?_⟩
  show (Query.run (some fun table => .ok (m.rows table)) s
    (m.rows s.table)).mapError _ = _
  rw [ho]
  rfl

/-- The rows that a statement leaves are of texts. -/
theorem textual_of_run {s : Statement} {o : Outcome} (h : Holds dir m)
    (hrun : m.run s = .ok o) (hnew : o.contents = some new) :
    Query.Textual new := by
  have haccounts := Query.accounts_of_run (Query.of_mapError_eq_ok hrun) hnew
  exact fun r hr =>
    Query.isTextual_of_accounts (h.textual s.table) (haccounts r hr)

/-- A statement that is executed on files and in memory answers the same. -/
theorem execute (h : Holds dir m) (ht : t.OfChars)
    (hvalues : ∀ v ∈ values.getD [], v.OfChars) :
    (Database.execute dir t values).1 = (m.execute t values).1 ∧
      Holds (Database.execute dir t values).2 (m.execute t values).2 := by
  rw [Memory.execute, Database.execute]
  cases hread : Database.read t values with
  | error e => exact ⟨rfl, h⟩
  | ok s =>
      obtain ⟨o, ho⟩ := h.exists_run s
      have hrun := (h.run_eq s).trans ho
      simp only [ho, hrun]
      cases hnew : o.contents with
      | none =>
          have hcommit : Database.commit dir s.table o = (.ok (), dir) := by
            rw [Database.commit, hnew]
          rw [hcommit]
          exact ⟨rfl, h⟩
      | some new =>
          -- rows of characters can always be written, so that saving them does
          -- not fail
          have hstorable := Database.storable_of_run hread hrun ht hvalues hnew
          obtain ⟨text, htext, _⟩ := Json.exists_writeRows hstorable
          have hcommit : Database.commit dir s.table o =
              (.ok (), dir.write (Store.fileName s.table)
                (Utf8.encode text)) := by
            rw [Database.commit, hnew]
            simp only [Store.replace_of_ok htext]
            rfl
          rw [hcommit]
          exact ⟨rfl, h.write (Store.replaced_write htext)
            (Database.isName_of_read hread) (h.textual_of_run ho hnew)
              hstorable⟩

end Holds

/-! ## Runs

Each answer is the same and leaves the directory holding the memory, so by
induction on the requests a whole run answers alike. -/

/-- The texts of a request, those of its values among them, are of
characters. -/
def Database.Request.OfChars : Database.Request → Prop
  | .execute t values | .query t values =>
      t.OfChars ∧ ∀ v ∈ values.getD [], v.OfChars
  | .tables | .reopen => True

namespace Holds

variable {dir : Directory} {m : Memory}

/-- One request more. -/
theorem answer {q : Database.Request} (h : Holds dir m) (hq : q.OfChars) :
    (Database.answer dir q).1 = (m.answer q).1 ∧
      Holds (Database.answer dir q).2 (m.answer q).2 := by
  cases q with
  | execute t values =>
      obtain ⟨hreply, hafter⟩ := h.execute hq.1 hq.2
      exact ⟨congrArg Database.Reply.answer hreply, hafter⟩
  | query t values =>
      obtain ⟨hreply, hafter⟩ := h.execute hq.1 hq.2
      exact ⟨congrArg Database.Reply.ofQuery hreply, hafter⟩
  | tables => exact ⟨congrArg Database.Reply.tables h.tables_eq, h⟩
  | reopen => exact ⟨rfl, h⟩

/-- Any number of requests. -/
theorem answers {qs : List Database.Request} (h : Holds dir m)
    (hqs : ∀ q ∈ qs, q.OfChars) :
    (Database.answers dir qs).1 = (m.answers qs).1 ∧
      Holds (Database.answers dir qs).2 (m.answers qs).2 := by
  induction qs generalizing dir m with
  | nil => exact ⟨rfl, h⟩
  | cons q qs ih =>
      obtain ⟨hq, hqs⟩ := List.forall_mem_cons.1 hqs
      obtain ⟨hreply, hafter⟩ := h.answer hq
      obtain ⟨hreplies, hall⟩ := ih hafter hqs
      exact ⟨congrArg₂ List.cons hreply hreplies, hall⟩

end Holds

/-- The same rows are in files and in memory, all of texts, and every statement
that can be read succeeds on both. -/
structure Agrees (dir : Directory) (m : Memory) : Prop where
  load : ∀ table, Store.load dir table = .ok (m.rows table)
  textual : ∀ table, ∀ r ∈ m.rows table, r.IsTextual
  succeeds : ∀ t values s, t.OfChars → (∀ v ∈ values.getD [], v.OfChars) →
    Database.read t values = .ok s →
      ∃ a, (Database.execute dir t values).1 = .ok a ∧
        (m.execute t values).1 = .ok a

theorem Holds.agrees {dir : Directory} {m : Memory} (h : Holds dir m) :
    Agrees dir m where
  load := h.load
  textual := h.textual
  succeeds t values s ht hvalues hread := by
    obtain ⟨o, ho⟩ := h.exists_run s
    have hmemory : (m.execute t values).1 = .ok o.answer := by
      rw [Memory.execute, hread]
      simp only [ho]
    exact ⟨o.answer, (h.execute ht hvalues).1.trans hmemory, hmemory⟩

/-- A database that begins with an empty directory replies to requests of
characters as the one in memory does, and agrees with it at any time. -/
theorem Database.answers_eq_memory {qs : List Database.Request}
    (h : ∀ q ∈ qs, q.OfChars) :
    (Database.answers .empty qs).1 = (Memory.answers .empty qs).1 ∧
      Agrees (Database.answers .empty qs).2 (Memory.answers .empty qs).2 :=
  ⟨(Holds.empty.answers h).1, (Holds.empty.answers h).2.agrees⟩

/-- A row is added with a value bound into it, and is still there to be removed
when the database has been opened again. -/
def reopened : List Database.Request :=
  [.execute "INSERT INTO t (a) VALUES (?)".toText (some [.text "x".toText]),
    .reopen, .execute "DELETE FROM t".toText none, .tables]

theorem Database.answers_reopened :
    (∀ q ∈ reopened, q.OfChars) ∧
      (Database.answers .empty reopened).1 =
        [.answer (.ok (.record (.ofFields [("a".toText, .text "x".toText)]))),
          .opened, .answer (.ok (.count 1)), .tables ["t".toText]] := by
  have hchars : ∀ q ∈ reopened, q.OfChars := by
    have hvalues : ∀ v ∈ [Value.text "x".toText], v.OfChars := by
      intro v hv
      rw [List.mem_singleton.1 hv]
      exact Text.Ascii.ofChars (by decide)
    simp only [reopened, List.forall_mem_cons]
    exact ⟨⟨Text.Ascii.ofChars (by decide), hvalues⟩, trivial,
      ⟨Text.Ascii.ofChars (by decide), fun v hv => absurd hv List.not_mem_nil⟩,
      trivial, fun q hq => absurd hq List.not_mem_nil⟩
  have hmemory : (Memory.answers .empty reopened).1 =
      [.answer (.ok (.record (.ofFields [("a".toText, .text "x".toText)]))),
        .opened, .answer (.ok (.count 1)),
        .tables (["t".toText].mergeSort fun a b => decide (a ≤ b))] :=
    rfl
  rw [List.mergeSort_singleton] at hmemory
  exact ⟨hchars, (Database.answers_eq_memory hchars).1.trans hmemory⟩

end RowSql
