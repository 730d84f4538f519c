import RowSql.Proofs.Database.Atomicity
import RowSql.Proofs.Filter.Conjunction
import RowSql.Proofs.Statement.Insert
import RowSql.Proofs.Statement.Select
import RowSql.Proofs.Statement.Splitting

/-!
# Inserts with bound texts

Any texts can be bound into an INSERT, as long as there are quotes to put each
into, and the new row has them as they are: nothing of a text can be mistaken
for the end of it, and the last character of the statement is not its own. A
SELECT into which one of them is bound finds the row again, for there the text
comes last, and what a backslash at its end hides is nothing. That takes a name
which is not read as LIMIT and texts that a file gives back as they are; for
either there is a case in which the row is missed.
-/

namespace RowSql

open Text Statement

/-- An INSERT whose texts are to be bound. -/
def openInsert (table : Text) (xs : List (Text × Text)) : Text :=
  insertText table (xs.map Prod.fst) (xs.map fun _ => placeholder)

/-- A SELECT of the rows that meet one test, whose text is to be bound. -/
def openSelect (table : Text) (x : Text × Text) : Text :=
  "SELECT * FROM ".toText ++ (table ++ (" WHERE ".toText ++ openEquation x))

variable {dir : Directory} {table : Text} {x : Text × Text}
  {xs : List (Text × Text)} {rows : List Record}

/-! ## The statements

Binding puts each text into the quotes it lacks, and what is parsed then is a
statement of words, names and quoted texts. Of the SELECT the filter has to be
found, which is why the name in it must not look like LIMIT. -/

theorem bind_openInsert (hxs : ∀ x ∈ xs, Filter.IsTest x)
    (htable : IsName table) :
    Binding.bind (openInsert table xs) (boundValues xs) =
      .ok (insertText table (xs.map Prod.fst) (xs.map fun x => x.2.quote)) := by
  have hcolumns : Unmarked (join ", ".toText (xs.map Prod.fst)) :=
    forall_mem_join (by decide) <| List.forall_mem_map.2 fun x hx =>
      unmarked_of_isWord (hxs x hx).name.word
  have hvalues :
      Binding.Binds (join ", ".toText (xs.map fun _ => placeholder))
        (boundValues xs)
        (join ", ".toText (xs.map fun x => x.2.quote)) :=
    Binding.binds_join (by decide) fun x hx =>
      Binding.binds_placeholder (hxs x hx).bindable
  have hwhole :=
    (Binding.binds_of_unmarked (t := "INSERT".toText) (by decide)).append
      ((Binding.binds_of_unmarked (t := " INTO ".toText) (by decide)).append
        ((Binding.binds_of_unmarked (unmarked_of_isWord htable.word)).append
          ((Binding.binds_of_unmarked (t := " (".toText) (by decide)).append
            ((Binding.binds_of_unmarked hcolumns).append
              ((Binding.binds_of_unmarked (t := ") VALUES (".toText)
                (by decide)).append
                  (hvalues.append
                    (Binding.binds_of_unmarked (t := [.char ')'])
                      (by decide))))))))
  simp only [List.nil_append, List.append_nil] at hwhole
  exact hwhole.bind_eq

/-- What is read of an INSERT with its texts bound. -/
theorem read_openInsert (hne : xs ≠ []) (hxs : ∀ x ∈ xs, Filter.IsTest x)
    (htable : IsName table) :
    Database.read (openInsert table xs) (some (boundValues xs)) =
      .ok (.insert ⟨table, xs.map Prod.fst, xs.map Prod.snd⟩) := by
  have hvalues : ∀ v ∈ xs.map (fun x => x.2.quote), IsEntry v :=
    List.forall_mem_map.2 fun x hx =>
      isEntry_quoted (hxs x hx).bindable.encloses
  have hparse :=
    parse_insertText htable (List.forall_mem_map.2 fun x hx => (hxs x hx).name)
      hvalues
      (fun hn => hne (List.map_eq_nil_iff.1 hn))
        (fun hn => hne (List.map_eq_nil_iff.1 hn))
  have hstrip :
      (xs.map fun x => x.2.quote).map stripQuotes = xs.map Prod.snd := by
    rw [List.map_map]
    exact List.map_congr_left fun x _ =>
      stripQuotes_between (isQuote_quoteOf x.2) x.2
  rw [hstrip] at hparse
  exact Database.read_of_bind (bind_openInsert hxs htable) hparse

/-- A SELECT of the rows that meet one test, with its text bound. -/
def boundSelect (table : Text) (x : Text × Text) : Text :=
  selectText ["*".toText] table [] [(.filter, boundEquation x)]

theorem boundSelect_eq (table : Text) (x : Text × Text) :
    boundSelect table x =
      "SELECT * FROM ".toText ++
        (table ++ (" WHERE ".toText ++ boundEquation x)) := by
  show "SELECT * FROM ".toText ++ (table ++ (" WHERE".toText ++
    (.char ' ' :: boundEquation x ++ []))) = _
  rw [List.append_nil]
  rfl

theorem bind_openSelect (hx : Filter.IsTest x) (htable : IsName table) :
    Binding.bind (openSelect table x) [.text x.2] =
      .ok (boundSelect table x) := by
  rw [boundSelect_eq]
  exact ((Binding.binds_of_unmarked (t := "SELECT * FROM ".toText)
    (by decide)).append
      ((Binding.binds_of_unmarked (unmarked_of_isWord htable.word)).append
      ((Binding.binds_of_unmarked (t := " WHERE ".toText) (by decide)).append
        (binds_equation hx.name hx.bindable)))).bind_eq

/-- It ends in a quote. -/
theorem isBare_boundSelect (table : Text) (x : Text × Text) :
    IsBare (boundSelect table x) := by
  have hsplit :
      boundSelect table x = Kind.select.word ++ ((" * FROM ".toText ++ (table ++
        (" WHERE ".toText ++
          (x.1 ++ (" = ".toText ++ (x.2.quoteOf :: x.2)))))) ++
            [x.2.quoteOf]) := by
    rw [boundSelect_eq, boundEquation, equation, Text.quote, between]
    simp only [List.append_assoc]
    rfl
  rw [hsplit]
  exact isBare_append_quote (isQuote_quoteOf x.2)

/-- The test is the whole filter, whatever its text ends in: no clause comes
after it. -/
theorem readSelect_boundSelect (hx : Filter.IsTest x)
    (hlimit : ¬ Spells "LIMIT".toText x.1) (htable : IsName table) :
    readSelect (boundSelect table x) =
      .ok ⟨table, ["*".toText], some (boundEquation x), none, none, []⟩ := by
  have hchosen : Clause.Chosen selectClauses [(.filter, boundEquation x)] :=
    .last (equation_ne_nil hx.name _)
      (trimmed_equation hx.name (isQuote_quoteOf x.2) x.2)
      (Clause.silent_equation hx.name hx.bindable.encloses hlimit)
  rw [boundSelect,
    readSelect_selectText (List.cons_ne_nil _ _) (by decide) htable
    (fun _ hj => absurd hj List.not_mem_nil), hchosen.split?_text]
  rfl

/-- What is read of a SELECT with its text bound. -/
theorem read_openSelect (hx : Filter.IsTest x)
    (hlimit : ¬ Spells "LIMIT".toText x.1) (htable : IsName table) :
    Database.read (openSelect table x) (some [.text x.2]) =
      .ok (.select ⟨table, ["*".toText], some (boundEquation x), none, none,
        []⟩) := by
  refine Database.read_of_bind (bind_openSelect hx htable) ?_
  refine parse_of_readAs .select (isBare_boundSelect table x).bare_eq ?_
  show (readSelect (boundSelect table x)).map Statement.select = _
  rw [readSelect_boundSelect hx hlimit htable]
  rfl

/-! ## Their execution

The new row is loaded again behind the rows that were there. What the SELECT
asks of each is equality with the text, which fails on no row in range. -/

/-- The row of some texts. -/
def boundRow (xs : List (Text × Text)) : Record :=
  .ofFields (textFields xs)

theorem fields_boundRow (h : (xs.map Prod.fst).Nodup) :
    (boundRow xs).fields = textFields xs :=
  Record.fields_ofFields (by rwa [names_textFields])

/-- A row of distinct names meets each test that its own fields are. -/
theorem meets_boundRow (h : (xs.map Prod.fst).Nodup) (hx : x ∈ xs) :
    Filter.Meets [x] (boundRow xs) := by
  have hfield : (x.1, Value.text x.2) ∈ textFields xs := List.mem_map_of_mem hx
  have hdistinct : (textFields xs).names.Nodup := by rwa [names_textFields]
  intro y hy
  rw [List.mem_singleton.1 hy]
  refine ⟨.text x.2, ?_, Filter.equal_text_self x.2⟩
  rw [Record.get?, fields_boundRow h]
  exact Named.get?_of_mem hdistinct hfield

theorem inRange_boundRow (xs : List (Text × Text)) : (boundRow xs).InRange := by
  refine Record.IsTextual.inRange fun f hf => ?_
  rcases Named.mem_of_mem_setAll hf with hf | hf
  · exact absurd hf List.not_mem_nil
  · obtain ⟨y, _, rfl⟩ := List.mem_map.1 hf
    exact ⟨y.2, rfl⟩

theorem storable_boundRow (hxs : ∀ x ∈ xs, IsName x.1 ∧ x.2.Whole) :
    (boundRow xs).Storable :=
  Record.Storable.setAll_textFields (fun _ hf => absurd hf List.not_mem_nil) hxs

theorem Query.newRecord_eq (table : Text) (xs : List (Text × Text)) :
    newRecord ⟨table, xs.map Prod.fst, xs.map Prod.snd⟩ = boundRow xs := by
  rw [newRecord, List.zip_map', List.map_map]
  rfl

/-- A SELECT with a bound text answers the rows that meet its test, in their
order. -/
theorem Database.execute_openSelect (hx : Filter.IsTest x)
    (hlimit : ¬ Spells "LIMIT".toText x.1) (htable : IsName table)
    (hload : Store.load dir table = .ok rows) (hrows : ∀ r ∈ rows, r.InRange) :
    execute dir (openSelect table x) (some [.text x.2]) =
      (.ok (.rows (rows.filter fun r => decide (Filter.Meets [x] r))),
        dir) := by
  have hrun :
      run dir (.select ⟨table, ["*".toText], some (boundEquation x), none,
        none, []⟩) =
        .ok ⟨.rows (rows.filter fun r => decide (Filter.Meets [x] r)),
          none⟩ := by
    have hxs : ∀ y ∈ [x], Filter.IsTest y :=
      fun y hy => by rwa [List.mem_singleton.1 hy]
    have hselect := Query.select_eq (some (Store.load dir)) table
      (equation_ne_nil hx.name x.2.quote) fun r hr =>
        Filter.holds_conjunction_eq_ok (List.cons_ne_nil x []) hxs
          (Filter.separable_singleton x)
          (hrows r hr)
    rw [run]
    simp only [Statement.table, hload]
    exact congrArg (Except.mapError QueryError.toDatabaseError) hselect
  obtain ⟨after, hexecute, hafter⟩ :=
    execute_of_run (read_openSelect hx hlimit htable) hrun
  rw [hexecute, hafter]

/-- An INSERT with bound texts adds a row of these texts behind the others. -/
theorem Database.exists_after_openInsert (htable : IsName table) (hne : xs ≠ [])
    (hxs : ∀ x ∈ xs, Filter.IsTest x)
    (hload : Store.load dir table = .ok rows) :
    ∃ after,
      execute dir (openInsert table xs) (some (boundValues xs)) =
        (.ok (.record (boundRow xs)), after) ∧
      Replaced dir after table (rows ++ [boundRow xs]) := by
  have hrun : run dir (.insert ⟨table, xs.map Prod.fst, xs.map Prod.snd⟩) =
      .ok ⟨.record (boundRow xs), some (rows ++ [boundRow xs])⟩ := by
    rw [run]
    simp only [Statement.table, hload, Query.run, Query.insert,
      Query.newRecord_eq]
    rfl
  exact execute_of_run (read_openInsert hne hxs htable) hrun

/-- The new row is loaded as it was bound exactly if its texts are whole. A text
in which a high surrogate stands before a low one is written with an escape for
each, and these are read as the one character that they stand for. -/
theorem load_openInsert_iff (hdistinct : (xs.map Prod.fst).Nodup)
    (hxs : ∀ x ∈ xs, IsName x.1) (hload : Store.load dir table = .ok rows)
    {after : Directory} (h : Replaced dir after table (rows ++ [boundRow xs])) :
    Store.load after table = .ok (rows ++ [boundRow xs]) ↔
      ∀ x ∈ xs, x.2.Whole := by
  constructor
  · intro hafter x hx
    have hfield : (x.1, Value.text x.2) ∈ (boundRow xs).fields := by
      rw [fields_boundRow hdistinct]
      exact List.mem_map_of_mem hx
    exact (Store.storable_of_load hafter _ List.mem_concat_self _ hfield).2
  · intro hwhole
    refine Store.load_of_replaced h
      (List.forall_mem_append.2 ⟨Store.storable_of_load hload, ?_⟩)
    exact List.forall_mem_singleton.2
      (storable_boundRow fun x hx => ⟨hxs x hx, hwhole x hx⟩)

/-- An INSERT with bound texts adds a row of exactly these fields behind the
others, and changes nothing else. The rows are loaded again as they are exactly
if the texts are whole, as all texts of characters are. Then a SELECT with one
of the texts bound, unless its name is read as LIMIT, answers the rows that meet
its test, and the new row does. -/
theorem Database.execute_openInsert (htable : IsName table) (hne : xs ≠ [])
    (hdistinct : (xs.map Prod.fst).Nodup) (hxs : ∀ x ∈ xs, Filter.IsTest x)
    (hload : Store.load dir table = .ok rows) (hrows : ∀ r ∈ rows, r.InRange) :
    ∃ after new, new.fields = textFields xs ∧
      execute dir (openInsert table xs) (some (boundValues xs)) =
        (.ok (.record new), after) ∧
      Replaced dir after table (rows ++ [new]) ∧
      (Store.load after table = .ok (rows ++ [new]) ↔ ∀ x ∈ xs, x.2.Whole) ∧
      ((∀ x ∈ xs, x.2.Whole) → ∀ x ∈ xs, ¬ Spells "LIMIT".toText x.1 →
        execute after (openSelect table x) (some [.text x.2]) =
          (.ok (.rows ((rows ++ [new]).filter fun r =>
            decide (Filter.Meets [x] r))), after) ∧
        Filter.Meets [x] new) := by
  obtain ⟨after, hexecute, hreplaced⟩ :=
    exists_after_openInsert htable hne hxs hload
  have hafter :=
    load_openInsert_iff hdistinct (fun x hx => (hxs x hx).name) hload hreplaced
  have hrange : ∀ r ∈ rows ++ [boundRow xs], r.InRange :=
    List.forall_mem_append.2 ⟨hrows,
      List.forall_mem_singleton.2 (inRange_boundRow xs)⟩
  refine ⟨after, boundRow xs, fields_boundRow hdistinct, hexecute, hreplaced,
    hafter, fun hwhole x hx hlimit => ?_⟩
  exact ⟨execute_openSelect (hxs x hx) hlimit htable (hafter.2 hwhole) hrange,
    meets_boundRow hdistinct hx⟩

/-- A row, and texts that are added behind it, one of which it has as a
number. -/
def earlierRow : Record := .ofFields [("b".toText, .text "1".toText)]

def addedTexts : List (Text × Text) :=
  [("a".toText, "x), (' ; ?\\".toText), ("b".toText, "1.0".toText)]

theorem Database.execute_openInsert_addedTexts :
    ∃ dir after, Store.load dir "t".toText = .ok [earlierRow] ∧
      execute dir (openInsert "t".toText addedTexts)
          (some (boundValues addedTexts)) =
        (.ok (.record (boundRow addedTexts)), after) ∧
      Store.load after "t".toText = .ok [earlierRow, boundRow addedTexts] ∧
      execute after (openSelect "t".toText ("b".toText, "1.0".toText))
          (some [.text "1.0".toText]) =
        (.ok (.rows [earlierRow, boundRow addedTexts]), after) := by
  have hstorable : ∀ r ∈ [earlierRow], r.Storable := by decide +kernel
  obtain ⟨dir, _, hload⟩ := Store.exists_save hstorable .empty "t".toText
  have htable : IsName "t".toText := by decide
  have hxs : ∀ x ∈ addedTexts, Filter.IsTest x := by decide
  obtain ⟨after, new, hfields, hexecute, _, hafter, hfound⟩ :=
    Database.execute_openInsert htable
      (by decide) (by decide) hxs hload (by decide)
  have hnew : new = boundRow addedTexts := by
    rw [← Record.ofFields_fields new, hfields]
    rfl
  rw [hnew] at hexecute hafter hfound
  have hwhole : ∀ x ∈ addedTexts, x.2.Whole := by decide
  have hselect :=
    (hfound hwhole ("b".toText, "1.0".toText) (by decide) (by decide)).1
  have hrows : ([earlierRow] ++ [boundRow addedTexts]).filter
      (fun r => decide (Filter.Meets [("b".toText, "1.0".toText)] r)) =
        [earlierRow, boundRow addedTexts] := by decide +kernel
  rw [hrows] at hselect
  exact ⟨dir, after, hload, hexecute, hafter.2 hwhole, hselect⟩

/-! ## Rows that are missed

A SELECT can miss the row that was added for it, for one of two reasons. Letters
of a clause are compared without regard to case, and there an I with a dot is an
I, so that a name is read as LIMIT whose capitals are another word. And two
halves of a pair are not what the file gives back. -/

/-- A name that is read as LIMIT, though its capitals are another word. -/
def dottedTest : Text × Text := ("LİMIT".toText, "x".toText)

/-- A text in which the halves of a pair are code points of their own. -/
def halvesTest : Text × Text :=
  ("a".toText, [.surrogate 0x3D, .surrogate 0x600])

theorem Database.openSelect_misses_boundRow :
    Store.load .empty "t".toText = .ok [] ∧
    (Filter.IsTest dottedTest ∧ upper dottedTest.1 ≠ "LIMIT".toText ∧
      ∃ after,
        execute .empty (openInsert "t".toText [dottedTest])
            (some (boundValues [dottedTest])) =
          (.ok (.record (boundRow [dottedTest])), after) ∧
        Store.load after "t".toText = .ok [boundRow [dottedTest]] ∧
        execute after (openSelect "t".toText dottedTest)
            (some [.text dottedTest.2]) =
          (.error (.parse (.malformed "SELECT".toText
            "SELECT * FROM t WHERE LİMIT = \"x\"".toText)), after)) ∧
    Filter.IsTest halvesTest ∧ ¬ Spells "LIMIT".toText halvesTest.1 ∧
      ∃ after,
        execute .empty (openInsert "t".toText [halvesTest])
            (some (boundValues [halvesTest])) =
          (.ok (.record (boundRow [halvesTest])), after) ∧
        Store.load after "t".toText =
          .ok [.ofFields [("a".toText, .text "😀".toText)]] ∧
        execute after (openSelect "t".toText halvesTest)
            (some [.text halvesTest.2]) =
          (.ok (.rows []), after) := by
  refine ⟨by decide, ⟨by decide, by decide, ?_⟩, by decide, by decide, ?_⟩
  · refine ⟨(execute .empty (openInsert "t".toText [dottedTest])
      (some (boundValues [dottedTest]))).2, ?_, ?_, ?_⟩ <;> decide +kernel
  · refine ⟨(execute .empty (openInsert "t".toText [halvesTest])
      (some (boundValues [halvesTest]))).2, ?_, ?_, ?_⟩ <;> decide +kernel

end RowSql
