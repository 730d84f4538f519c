import RowSql.Proofs.Database.Atomicity
import RowSql.Proofs.Filter.Conjunction
import RowSql.Proofs.Statement.Update

/-!
# Updates with bound texts

A text that is bound into an UPDATE, as a value to set or to be found, is taken
as it stands, whatever is in it, with one exception. The searches for the filter
and for its connectives know backslashes, and the binder does not: behind a text
that ends in one they miss the closing quote. So no text but the last may end in
a backslash. If one does, the filter may not be found, and then all rows are
changed.
-/

namespace RowSql

open Text Statement

/-- A record in which texts are set if it meets tests. -/
def amend (xs ys : List (Text × Text)) (r : Record) : Record :=
  if Filter.Meets ys r then r.setAll (textFields xs) else r

/-! ## The statement

Behind each assignment the scanner must be outside of quotes, so that it sees
the comma or the WHERE that follows. A backslash in front of a closing quote
hides that quote from the clause scanner, which is why no assigned text may end
in one. -/

/-- A name and the text that is bound as its value. -/
structure IsAssignment (x : Text × Text) : Prop where
  name : IsName x.1
  noWhere : ¬ Spells "WHERE".toText x.1
  bindable : x.2.Bindable
  closed : x.2.getLast? ≠ some (.char '\\')

instance (x : Text × Text) : Decidable (IsAssignment x) :=
  decidable_of_iff (IsName x.1 ∧ ¬ Spells "WHERE".toText x.1 ∧ x.2.Bindable ∧
      x.2.getLast? ≠ some (.char '\\'))
    ⟨fun h => ⟨h.1, h.2.1, h.2.2.1, h.2.2.2⟩, fun h => ⟨h.1, h.2, h.3, h.4⟩⟩

/-- An UPDATE whose texts are to be bound. -/
def openUpdate (table : Text) (xs ys : List (Text × Text)) : Text :=
  "UPDATE ".toText ++
    (table ++ (" SET ".toText ++ (join ", ".toText (xs.map openEquation) ++
    (" WHERE ".toText ++ join " AND ".toText (ys.map openEquation)))))

/-- An assignment as it is written when it is bound. -/
def boundAssignment (x : Text × Text) : Assignment :=
  ⟨x.1, x.2.quoteOf, x.2⟩

variable {dir : Directory} {table : Text} {xs ys : List (Text × Text)}
  {rows : List Record}

theorem IsAssignment.isReadable {x : Text × Text} (h : IsAssignment x) :
    (boundAssignment x).IsReadable :=
  ⟨h.name, h.noWhere, h.bindable.encloses, h.closed⟩

theorem written_boundAssignment :
    (xs.map boundAssignment).map Assignment.written = xs.map boundEquation :=
  List.map_map

theorem meaning_boundAssignment :
    (xs.map boundAssignment).map Assignment.meaning = xs := by
  rw [List.map_map]
  exact List.map_id xs

theorem bind_openUpdate (htable : IsName table) (hxs : ∀ x ∈ xs, IsAssignment x)
    (hys : ∀ y ∈ ys, Filter.IsTest y) :
    Binding.bind (openUpdate table xs ys) (boundValues xs ++ boundValues ys) =
      .ok (updateText table (xs.map boundAssignment)
        (some (Filter.conjunction ys))) := by
  have hassignments : Binding.Binds _ (boundValues xs) _ :=
    binds_equations ", ".toText (by decide) fun x hx =>
      ⟨(hxs x hx).name, (hxs x hx).bindable⟩
  have htests : Binding.Binds _ (boundValues ys) _ :=
    binds_equations " AND ".toText (by decide) fun y hy =>
      ⟨(hys y hy).name, (hys y hy).bindable⟩
  have hwhole :=
    (Binding.binds_of_unmarked (t := "UPDATE ".toText) (by decide)).append
      ((Binding.binds_of_unmarked (unmarked_of_isWord htable.word)).append
        ((Binding.binds_of_unmarked (t := " SET ".toText) (by decide)).append
          (hassignments.append
            ((Binding.binds_of_unmarked (t := " WHERE ".toText)
              (by decide)).append htests))))
  rw [updateText, written_boundAssignment]
  exact hwhole.bind_eq

/-- A conjunction ends in the quote of its last text. -/
theorem Filter.exists_conjunction_concat (h : ys ≠ []) :
    ∃ m q, isQuote q = true ∧ conjunction ys = m ++ [q] := by
  obtain ⟨s, t, ht, heq⟩ := exists_join_eq_append " AND ".toText
    (fun hn => h (List.map_eq_nil_iff.1 hn) : ys.map boundEquation ≠ [])
  obtain ⟨y, _, rfl⟩ := List.mem_map.1 ht
  refine ⟨s ++ (y.1 ++ (" = ".toText ++ (y.2.quoteOf :: y.2))), y.2.quoteOf,
    isQuote_quoteOf y.2, ?_⟩
  rw [conjunction, heq, boundEquation, equation, Text.quote, between]
  simp only [List.append_assoc]

theorem isFilter_conjunction (h : ys ≠ []) (hys : ∀ y ∈ ys, Filter.IsTest y) :
    IsFilter (Filter.conjunction ys) := by
  obtain ⟨m, q, _, heq⟩ := Filter.exists_conjunction_concat h
  exact ⟨heq ▸ List.append_ne_nil_of_right_ne_nil m (List.cons_ne_nil _ _),
    Filter.trimmed_conjunction h hys⟩

/-- What is read of an UPDATE with its texts bound. -/
theorem read_openUpdate (htable : IsName table) (hne : xs ≠ []) (hne' : ys ≠ [])
    (hxs : ∀ x ∈ xs, IsAssignment x) (hys : ∀ y ∈ ys, Filter.IsTest y) :
    Database.read (openUpdate table xs ys)
        (some (boundValues xs ++ boundValues ys)) =
      .ok (.update ⟨table, xs, some (Filter.conjunction ys)⟩) := by
  have hfilter : ∀ w ∈ some (Filter.conjunction ys), IsFilter w :=
    fun w hw => Option.some.inj hw ▸ isFilter_conjunction hne' hys
  have hread := readUpdate_updateText htable
    (fun hn => hne (List.map_eq_nil_iff.1 hn) : xs.map boundAssignment ≠ [])
    (List.forall_mem_map.2 fun x hx => (hxs x hx).isReadable) hfilter
  rw [meaning_boundAssignment] at hread
  -- it ends in a quote, so no semicolon is taken off it
  obtain ⟨m, q, hq, heq⟩ := Filter.exists_conjunction_concat hne'
  have hbare :
      IsBare (updateText table (xs.map boundAssignment)
        (some (Filter.conjunction ys))) := by
    have hsplit :
        updateText table (xs.map boundAssignment)
          (some (Filter.conjunction ys)) =
          Kind.update.word ++ (([.char ' '] ++ (table ++ (" SET ".toText ++
            (join ", ".toText
              ((xs.map boundAssignment).map Assignment.written) ++
              (" WHERE ".toText ++ m))))) ++ [q]) := by
      rw [updateText, filterText, heq]
      simp only [List.append_assoc]
      rfl
    rw [hsplit]
    exact isBare_append_quote hq
  have hparse :
      parse (updateText table (xs.map boundAssignment)
        (some (Filter.conjunction ys))) =
        .ok (.update ⟨table, xs, some (Filter.conjunction ys)⟩) := by
    refine parse_of_readAs .update hbare.bare_eq ?_
    show (readUpdate (updateText table (xs.map boundAssignment) _)).map
      Statement.update = _
    rw [hread]
    rfl
  exact Database.read_of_bind (bind_openUpdate htable hxs hys) hparse

/-! ## Its execution

Every test is asked of every row and fails on none in range, so the rows that
meet them all are changed and counted, and no others. -/

/-- Rows that are amended with whole texts can be stored. -/
theorem storable_amend (hxs : ∀ x ∈ xs, IsName x.1 ∧ x.2.Whole) {r : Record}
    (hr : r.Storable) :
    (amend xs ys r).Storable := by
  rw [amend]
  split
  · exact hr.setAll_textFields hxs
  · exact hr

/-- An UPDATE with bound texts, none of which but the last ends in a backslash,
changes the rows that meet its tests and no others. In each of them every name
that it sets has its text, the last one if the name is repeated. The answer is
the number of these rows. The rows are loaded from the file as they are if the
texts that are set are whole, which all texts of characters are: a high
surrogate before a low one would be read as the character that the two stand
for. -/
theorem Database.execute_openUpdate (htable : IsName table) (hne : xs ≠ [])
    (hne' : ys ≠ []) (hxs : ∀ x ∈ xs, IsAssignment x)
    (hys : ∀ y ∈ ys, Filter.IsTest y) (hseparable : Filter.Separable ys)
    (hload : Store.load dir table = .ok rows) (hrows : ∀ r ∈ rows, r.InRange) :
    ∃ after,
      execute dir (openUpdate table xs ys)
          (some (boundValues xs ++ boundValues ys)) =
        (.ok (.count (rows.countP fun r => decide (Filter.Meets ys r))),
          after) ∧
      Replaced dir after table (rows.map (amend xs ys)) ∧
      ((∀ x ∈ xs, x.2.Whole) →
        Store.load after table = .ok (rows.map (amend xs ys))) ∧
      (∀ r, ¬ Filter.Meets ys r → amend xs ys r = r) ∧
      ∀ r, Filter.Meets ys r → ∀ name,
        (amend xs ys r).get? name =
          ((lastText? xs name).map .text).or (r.get? name) := by
  have hread := read_openUpdate htable hne hne' hxs hys
  have hrun : run dir (.update ⟨table, xs, some (Filter.conjunction ys)⟩) =
      .ok ⟨.count (rows.countP fun r => decide (Filter.Meets ys r)),
        some (rows.map (amend xs ys))⟩ := by
    have hupdate :=
      Query.update_eq (s := ⟨table, xs, some (Filter.conjunction ys)⟩)
        fun r hr =>
          Filter.holds_conjunction_eq_ok hne' hys hseparable (hrows r hr)
    have hamend : (fun r : Record => if decide (Filter.Meets ys r) = true then
        r.setAll (Query.newFields ⟨table, xs, some (Filter.conjunction ys)⟩)
        else r) =
          amend xs ys := by
      funext r
      rw [amend]
      exact if_congr decide_eq_true_iff rfl rfl
    rw [hamend] at hupdate
    rw [run]
    simp only [Statement.table, hload, Query.run, hupdate]
    rfl
  obtain ⟨after, hexecute, hreplaced⟩ := execute_of_run hread hrun
  refine ⟨after, hexecute, hreplaced, fun hwhole => ?_, fun r hr => if_neg hr,
    ?_⟩
  · refine Store.load_of_replaced hreplaced
      (List.forall_mem_map.2 fun r hr => ?_)
    exact storable_amend (fun x hx => ⟨(hxs x hx).name, hwhole x hx⟩)
      (Store.storable_of_load hload r hr)
  · intro r hr name
    rw [amend, if_pos hr, Record.get?_setAll_textFields]

/-- A row, and an UPDATE that finds it. -/
def foundRow : Record :=
  .ofFields [("a".toText, .text "1".toText), ("b".toText, .text "two".toText)]

theorem Database.execute_openUpdate_foundRow :
    ∃ dir after, Store.load dir "t".toText = .ok [foundRow] ∧
      execute dir
          (openUpdate "t".toText [("a".toText, "x, WHERE ? '".toText),
            ("a".toText, "y".toText)] [("b".toText, "two".toText)])
          (some [.text "x, WHERE ? '".toText, .text "y".toText,
            .text "two".toText]) =
        (.ok (.count 1), after) ∧
      Store.load after "t".toText =
        .ok [.ofFields [("a".toText, .text "y".toText),
          ("b".toText, .text "two".toText)]] := by
  have hstorable : ∀ r ∈ [foundRow], r.Storable := by decide +kernel
  obtain ⟨dir, _, hload⟩ := Store.exists_save hstorable .empty "t".toText
  have htable : IsName "t".toText := by decide
  have hxs :
      ∀ x ∈ [("a".toText, "x, WHERE ? '".toText), ("a".toText, "y".toText)],
        IsAssignment x := by decide
  have hys : ∀ y ∈ [("b".toText, "two".toText)], Filter.IsTest y := by decide
  obtain ⟨after, hexecute, _, hafter, _⟩ :=
    Database.execute_openUpdate htable (by decide)
      (by decide) hxs hys (Filter.separable_singleton _) hload (by decide)
  have hcount :
      [foundRow].countP
        (fun r => decide (Filter.Meets [("b".toText, "two".toText)] r)) =
          1 := by
    decide +kernel
  rw [hcount] at hexecute
  refine ⟨dir, after, hload, hexecute, (hafter (by decide)).trans ?_⟩
  decide +kernel

/-! ## Behind a backslash

With a backslash at the end of an assigned text the WHERE is taken for a part of
the text behind it. The statement then has no filter, and changes every row. -/

/-- A text that ends in a backslash, and a test that is hidden behind it. -/
def hidingText : List (Text × Text) := [("a".toText, "x\\".toText)]

def hiddenTest : List (Text × Text) := [("b".toText, "one".toText)]

theorem read_hiddenTest :
    Database.read (openUpdate "t".toText hidingText hiddenTest)
        (some (boundValues hidingText ++ boundValues hiddenTest)) =
      .ok (.update ⟨"t".toText, [("a".toText, "x\\\" WHERE b = \"one".toText)],
        none⟩) :=
  rfl

/-- A row that does not meet the test is changed, and not even to the text that
was bound. -/
theorem Database.execute_openUpdate_hiddenTest :
    (∀ x ∈ hidingText ++ hiddenTest, IsName x.1 ∧ ¬ Spells "WHERE".toText x.1 ∧
      Filter.NoConnective x.1 ∧ x.2.Bindable) ∧
    foundRow.IsTextual ∧ ¬ Filter.Meets hiddenTest foundRow ∧
    ∃ dir after, Store.load dir "t".toText = .ok [foundRow] ∧
      execute dir (openUpdate "t".toText hidingText hiddenTest)
          (some (boundValues hidingText ++ boundValues hiddenTest)) =
        (.ok (.count 1), after) ∧
      Replaced dir after "t".toText
        [foundRow.setAll
          [("a".toText, .text "x\\\" WHERE b = \"one".toText)]] := by
  have hstorable : ∀ r ∈ [foundRow], r.Storable := by decide +kernel
  obtain ⟨dir, _, hload⟩ := Store.exists_save hstorable .empty "t".toText
  have hrun :
      run dir (.update ⟨"t".toText,
        [("a".toText, "x\\\" WHERE b = \"one".toText)], none⟩) =
        .ok ⟨.count 1, some [foundRow.setAll
          [("a".toText, .text "x\\\" WHERE b = \"one".toText)]]⟩ := by
    rw [run]
    simp only [Statement.table, hload]
    rfl
  obtain ⟨after, hexecute, hreplaced⟩ := execute_of_run read_hiddenTest hrun
  exact ⟨by decide, by decide, by decide +kernel, dir, after, hload, hexecute,
    hreplaced⟩

end RowSql
