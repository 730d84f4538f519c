import RowSql.Proofs.Statement.Bodies
import RowSql.Proofs.Statement.Joins
import RowSql.Statement.Parser

/-!
# Reading selections

The columns of a SELECT are whatever stands before the first word FROM. Behind
it each reader begins where the one before has ended: the table's, that of the
joins, and then the search for the clauses, which goes over all the rest at
once.
-/

namespace RowSql.Statement

open Text

/-! ## Columns

The columns end at the first word FROM outside of quotes and parentheses. Names
and stars with commas between them hold no such word and leave the scan where it
was. -/

/-- A name, or the star that stands for all of them. -/
structure IsColumn (t : Text) : Prop where
  written : t = [.char '*'] ∨ IsField t
  noFrom : ¬ Spells "FROM".toText t

instance (t : Text) : Decidable (IsColumn t) :=
  decidable_of_iff ((t = [.char '*'] ∨ IsField t) ∧ ¬ Spells "FROM".toText t)
    ⟨fun h => ⟨h.1, h.2⟩, fun h => ⟨h.1, h.2⟩⟩

namespace IsColumn

variable {t : Text}

theorem ne_nil (h : IsColumn t) : t ≠ [] := by
  rcases h.written with rfl | hfield
  · exact List.cons_ne_nil _ _
  · exact hfield.ne_nil

theorem solid (h : IsColumn t) : ∀ c ∈ t, isBlank c = false := by
  rcases h.written with rfl | hfield
  · decide
  · exact hfield.solid

theorem plain (h : IsColumn t) : ∀ c ∈ t, Scan.Plain c := by
  rcases h.written with rfl | hfield
  · decide
  · exact fun c hc => plain_of_isFieldChar (hfield.field c hc)

theorem noComma (h : IsColumn t) : .char ',' ∉ t := by
  rcases h.written with rfl | hfield
  · decide
  · exact fun hmem => absurd (hfield.field _ hmem) (by decide)

end IsColumn

/-- What stands before the word FROM. -/
def columnsText (columns : List Text) : Text :=
  [.char ' '] ++ (join ", ".toText columns ++ [.char ' '])

section

variable {columns : List Text} (h : ∀ t ∈ columns, IsColumn t)

include h

theorem run_columns : ∀ t ∈ columns, (Scan.outside 0).run t = .outside 0 :=
  fun t ht => Scan.run_plain (h t ht).plain 0

theorem run_columnsText : Scan.start.run (columnsText columns) = .start :=
  Clause.run_list (run_columns h) blanks_space

theorem unseen_columnsText (rest : Text) :
    Clause.source.Unseen .start true rest (columnsText columns) := by
  refine Clause.unseen_list (run_columns h) (fun t ht free rest hrest => ?_)
    blanks_space
    (apart_cons.2 (by decide))
  exact Clause.unseen_of_solid (h t ht).solid
    (Clause.after?_eq_none_of_not_spells (h t ht).solid (h t ht).noFrom hrest)

theorem readColumns?_columnsText (hne : columns ≠ []) :
    readColumns? (columnsText columns) = some columns := by
  have hcolumns :
      ((columnsText columns).splitOn (.char ',')).map trim = columns :=
      trim_splitOn_join hne
        (fun t ht => ⟨trimmed_of_solid (h t ht).solid, (h t ht).noComma⟩)
        blanks_space blanks_space blanks_space
  have hnil : columns.contains [] = false := by
    rw [List.contains_eq_mem, decide_eq_false_iff_not]
    exact fun hmem => (h _ hmem).ne_nil rfl
  rw [readColumns?, hcolumns]
  exact if_neg (by rw [hnil]; exact Bool.false_ne_true)

end

/-! ## The whole statement

The readers are put one behind the other, each at the place where the one before
has stopped. What is left for the clauses is taken as it is. -/

/-- A SELECT with clauses that are written already. -/
def selectText (columns : List Text) (table : Text) (joins : List Join)
    (clauses : List (Clause × Text)) : Text :=
  "SELECT".toText ++ (columnsText columns ++ ("FROM".toText ++
    (.char ' ' :: (table ++ (Join.text joins ++ Clause.spaced clauses)))))

/-- The clauses that a SELECT may have, in their order. -/
def selectClauses : List Clause := [.filter, .order, .limit]

variable {columns : List Text} {table : Text} {joins : List Join}
  {bs : List (Clause × Text)}

theorem bounded_joins (joins : List Join) (bs : List (Clause × Text)) :
    Bounded (Join.text joins ++ Clause.spaced bs) := by
  cases joins with
  | nil => exact Clause.bounded_spaced bs
  | cons j js => exact bounded_cons.2 (by decide)

/-- What is read of a SELECT, part by part: the columns up to the first word
FROM, the table, the joins, and the clauses in the rest. -/
theorem readSelect_of_parts {t cs x r u : Text}
    (ht : t.drop Kind.select.word.length = cs ++ (x ++ r))
    (hunseen : Clause.source.Unseen .start true (x ++ r) cs)
    (htop : (Scan.start.run cs).atTop = true)
    (hfree : Clause.freeAfter true cs = true) (hx : x ≠ [])
    (hafter : Clause.source.after? (x ++ r) = some r)
    (hcolumns : readColumns? cs = some columns)
    (hr : trimLeft r = table ++ (Join.text joins ++ u)) (htable : IsName table)
    (hjoins : ∀ j ∈ joins, j.IsReadable)
    (hbounded : Bounded (Join.text joins ++ u)) (hu : Bounded u)
    (hend : ∀ c : Cursor, c.rest = u → joinOpening? c = none) :
    readSelect t =
      (do
        let clauses ← required (Clause.split? selectClauses (trimLeft u))
        let order ← readClause clauses .order fun body =>
          required (readOrder? body)
        let limit ← readClause clauses .limit readLimit
        return { table, columns, filter := clauses.lookup .filter, order,
                 limit := limit.map Int.ofNat, joins }) := by
  have hstart : (⟨t, Kind.select.word.length⟩ : Cursor).rest = cs ++ (x ++ r) :=
    ht
  have hfind :
      Clause.source.find? (cs ++ (x ++ r)) 0 =
        some (cs.length, cs.length + x.length) :=
      Clause.find?_append hunseen htop hfree hx hafter (Nat.zero_le _)
  have hfrom :
      ((⟨t, Kind.select.word.length⟩ : Cursor).advance
        (cs.length + x.length)).rest = r := by
    rw [Cursor.rest_advance, hstart, ← List.drop_drop, List.drop_left,
      List.drop_left]
  obtain ⟨c, hc, hcrest⟩ := readName_of_rest false (by rw [hfrom, hr]) htable
    (nameEnds_of_bounded hbounded)
  obtain ⟨d, hd, hdrest⟩ :=
    readJoins_of_rest hcrest hjoins (nameEnds_of_bounded hu) hend
  rw [readSelect]
  simp only [hstart, hfind, List.take_left, hcolumns, required, bind,
    Except.bind, hc, hd, hdrest, selectClauses]

/-- The columns, the table and the joins of a SELECT are read as they were
written, and what is left is the text of its clauses. -/
theorem readSelect_selectText (hne : columns ≠ [])
    (hcolumns : ∀ t ∈ columns, IsColumn t) (htable : IsName table)
    (hjoins : ∀ j ∈ joins, j.IsReadable) :
    readSelect (selectText columns table joins bs) =
      (do
        let clauses ← required (Clause.split? selectClauses (Clause.text bs))
        let order ← readClause clauses .order fun body =>
          required (readOrder? body)
        let limit ← readClause clauses .limit readLimit
        return { table, columns, filter := clauses.lookup .filter, order,
                 limit := limit.map Int.ofNat, joins }) := by
  have ht : (selectText columns table joins bs).drop Kind.select.word.length =
      columnsText columns ++ ("FROM".toText ++
        (.char ' ' :: (table ++ (Join.text joins ++ Clause.spaced bs)))) := rfl
  have hr :
      trimLeft (.char ' ' :: (table ++ (Join.text joins ++ Clause.spaced bs))) =
        table ++ (Join.text joins ++ Clause.spaced bs) := by
    rw [trimLeft_cons_blank (by decide)]
    exact ((flushLeft_append htable.ne_nil).2 htable.trimmed.head).trimLeft_eq
  have hfree : Clause.freeAfter true (columnsText columns) = true := by
    rw [columnsText, ← List.append_assoc]
    exact Clause.freeAfter_concat (by decide)
  have hafter :
      Clause.source.after?
        ("FROM".toText ++ (.char ' ' :: (table ++ (Join.text joins ++
        Clause.spaced bs)))) =
        some (.char ' ' :: (table ++ (Join.text joins ++ Clause.spaced bs))) :=
    Clause.after?_eq_some rfl (spells_self Clause.source.firstWord)
      (bounded_cons.2 (by decide))
  rw [readSelect_of_parts ht (unseen_columnsText hcolumns _)
    (by rw [run_columnsText hcolumns]; rfl)
    hfree (List.cons_ne_nil _ _) hafter (readColumns?_columnsText hcolumns hne)
      hr htable hjoins (bounded_joins joins bs) (Clause.bounded_spaced bs)
      fun e he =>
        joinOpening?_eq_none
          ((congrArg trimLeft he).trans (Clause.trimLeft_spaced bs)),
    Clause.trimLeft_spaced]

end RowSql.Statement
