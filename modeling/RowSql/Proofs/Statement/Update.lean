import RowSql.Proofs.Statement.Bare
import RowSql.Proofs.Statement.Equation

/-!
# Reading updates

An UPDATE is its table, its assignments and perhaps a filter. The assignments
are read as they are meant when the search for the filter is outside of quotes
again behind each of them, which asks of every text that it does not end in a
backslash. Of the filter nothing is asked at all: it is the whole of what stands
behind the first word WHERE.
-/

namespace RowSql.Statement

open Text

/-! ## Assignments

An assignment is an entry of a list for those that cut at commas and an
unseen part for the search for the filter, as long as its quotes are closed
for both. -/

/-- An assignment as it is written: a name, and a text in quotes of one kind. -/
structure Assignment where
  name : Text
  quote : CodePoint
  value : Text

namespace Assignment

/-- The text of an assignment. -/
def written (x : Assignment) : Text :=
  equation x.name (between x.quote x.value)

/-- What an assignment means. -/
def meaning (x : Assignment) : Text × Text :=
  (x.name, x.value)

/-- An assignment behind which a scan is where it was before it. -/
structure IsReadable (x : Assignment) : Prop where
  name : IsName x.name
  noWhere : ¬ Spells "WHERE".toText x.name
  encloses : Encloses x.quote x.value
  closed : x.value.getLast? ≠ some (.char '\\')

instance (x : Assignment) : Decidable x.IsReadable :=
  decidable_of_iff (IsName x.name ∧ ¬ Spells "WHERE".toText x.name ∧
    Encloses x.quote x.value ∧
      x.value.getLast? ≠ some (.char '\\'))
    ⟨fun h => ⟨h.1, h.2.1, h.2.2.1, h.2.2.2⟩, fun h => ⟨h.1, h.2, h.3, h.4⟩⟩

theorem IsReadable.run {x : Assignment} (h : x.IsReadable) (d : Int) :
    (Scan.outside d).run x.written = Scan.outside d :=
  run_equation h.name h.encloses h.closed d

theorem IsReadable.unseen {x : Assignment} (h : x.IsReadable) (d : Int)
    (free : Bool) (rest : Text) :
    Clause.filter.Unseen (Scan.outside d) free rest x.written := by
  have hname : ¬ Spells Clause.filter.firstWord x.name := h.noWhere
  exact unseen_equation h.name h.encloses (after?_name_eq_none h.name hname) d

theorem IsReadable.isEntry {x : Assignment} (h : x.IsReadable) :
    IsEntry x.written :=
  isEntry_equation h.name h.encloses

theorem filterMap_readAssignment? {xs : List Assignment}
    (h : ∀ x ∈ xs, x.IsReadable) :
    (xs.map written).filterMap readAssignment? = xs.map meaning := by
  induction xs with
  | nil => rfl
  | cons x xs ih =>
      rw [List.forall_mem_cons] at h
      rw [List.map_cons, List.filterMap_cons, written,
        readAssignment?_quoted h.1.name h.1.encloses.quote, ih h.2]
      rfl

end Assignment

/-- What stands behind the word SET: the assignments, between blanks. -/
def assignmentsText (xs : List Assignment) (b : Text) : Text :=
  [.char ' '] ++ (join ", ".toText (xs.map Assignment.written) ++ b)

section

variable {xs : List Assignment} {b : Text}

theorem bounded_assignmentsText (xs : List Assignment) (b rest : Text) :
    Bounded (assignmentsText xs b ++ rest) :=
  bounded_cons.2 (by decide)

theorem items_assignmentsText (h : ∀ x ∈ xs, x.IsReadable) (hb : Blanks b) :
    items (assignmentsText xs b) = xs.map Assignment.written :=
  items_join (fun t ht => by
    obtain ⟨x, hx, rfl⟩ := List.mem_map.1 ht
    exact (h x hx).isEntry) blanks_space hb

theorem not_blanks_assignmentsText (hne : xs ≠ []) (h : ∀ x ∈ xs, x.IsReadable)
    (b : Text) :
    ¬ Blanks (assignmentsText xs b) := by
  intro hblanks
  obtain ⟨x, ys, rfl⟩ := List.exists_cons_of_ne_nil hne
  obtain ⟨c, s, hc, hword⟩ := exists_equation_cons (h x List.mem_cons_self).name
    (between x.quote x.value)
  obtain ⟨r, hr⟩ :=
    exists_join_cons ", ".toText x.written (ys.map Assignment.written)
  rw [assignmentsText, List.map_cons, hr, Assignment.written, hc,
    List.append_assoc] at hblanks
  have hblank := (blanks_cons.1 (blanks_append.1 hblanks).2).1
  rw [isBlank_of_isWord hword] at hblank
  cases hblank

theorem run_written (h : ∀ x ∈ xs, x.IsReadable) :
    ∀ t ∈ xs.map Assignment.written, (Scan.outside 0).run t = .outside 0 :=
  List.forall_mem_map.2 fun x hx => (h x hx).run 0

/-- The assignments leave the search for the filter where it was. -/
theorem run_assignmentsText (h : ∀ x ∈ xs, x.IsReadable) (hb : Blanks b) :
    Scan.start.run (assignmentsText xs b) = .start :=
  Clause.run_list (run_written h) hb

theorem unseen_assignmentsText {rest : Text} (h : ∀ x ∈ xs, x.IsReadable)
    (hb : Blanks b) (hrest : Apart (b ++ rest)) :
    Clause.filter.Unseen .start true rest (assignmentsText xs b) :=
  Clause.unseen_list (run_written h)
    (List.forall_mem_map.2 fun x hx free rest _ => (h x hx).unseen 0 free rest)
      hb hrest

end

/-! ## The whole statement

The search goes over all assignments at once and stops at the first WHERE behind
them. With none there, all behind the word SET is assignments. -/

/-- The filter of an UPDATE or of a DELETE, if it has one. -/
def filterText : Option Text → Text
  | none => []
  | some w => " WHERE ".toText ++ w

/-- A filter that a statement can be left with. -/
structure IsFilter (w : Text) : Prop where
  ne_nil : w ≠ []
  trimmed : Trimmed w

instance (w : Text) : Decidable (IsFilter w) :=
  decidable_of_iff (w ≠ [] ∧ Trimmed w) ⟨fun h => ⟨h.1, h.2⟩,
    fun h => ⟨h.1, h.2⟩⟩

/-- An UPDATE. -/
def updateText (table : Text) (xs : List Assignment) (filter : Option Text) :
    Text :=
  "UPDATE ".toText ++ (table ++ (" SET ".toText ++
    (join ", ".toText (xs.map Assignment.written) ++ filterText filter)))

variable {table : Text} {xs : List Assignment}

/-- What is read of an UPDATE depends on what stands behind the word SET. -/
theorem readUpdate_eq {rest : Text} (htable : IsName table)
    (hrest : Bounded rest) :
    readUpdate ("UPDATE ".toText ++ (table ++ (" SET".toText ++ rest))) =
      let span := Clause.filter.find? rest 0
      let text := rest.take (span.elim rest.length Prod.fst)
      let filter := span.map fun p => trim (rest.drop p.2)
      (ensure (trim text != [] && filter != some [])).map fun _ =>
        { table, assignments := (items text).filterMap readAssignment?,
          filter } := by
  have hstart : (⟨"UPDATE ".toText ++ (table ++ (" SET".toText ++ rest)),
      Kind.update.word.length⟩ : Cursor).rest =
        .char ' ' :: (table ++ (" SET".toText ++ rest)) := rfl
  have hspace : Bounded (" SET".toText ++ rest) := bounded_cons.2 (by decide)
  obtain ⟨c, hc, hcrest⟩ :=
    readName_of_blank false hstart htable (nameEnds_of_bounded hspace)
  have hset : trimLeft c.rest = "SET".toText ++ rest := by
    rw [hcrest]
    rfl
  have hset' : upper "SET".toText = "SET".toText := by decide
  obtain ⟨d, hd, hdrest⟩ :=
    passWord_of_rest hset (by decide) hset' (not_word_of_bounded hrest)
  rw [readUpdate, hc]
  show (passWord "SET".toText c >>= _) = _
  rw [hd]
  show (ensure _ >>= _) = _
  simp only [hdrest]
  cases ensure _ <;> rfl

/-- An UPDATE is read as what it was written from. -/
theorem readUpdate_updateText {filter : Option Text} (htable : IsName table)
    (hne : xs ≠ []) (hxs : ∀ x ∈ xs, x.IsReadable)
    (hfilter : ∀ w ∈ filter, IsFilter w) :
    readUpdate (updateText table xs filter) =
      .ok { table, assignments := xs.map Assignment.meaning, filter } := by
  have hassignments {b : Text} (hb : Blanks b) :
      (items (assignmentsText xs b)).filterMap readAssignment? =
        xs.map Assignment.meaning := by
    rw [items_assignmentsText hxs hb, Assignment.filterMap_readAssignment? hxs]
  have hnot (b : Text) : (trim (assignmentsText xs b) != []) = true :=
    bne_iff_ne.2 fun hn =>
      not_blanks_assignmentsText hne hxs b (trim_eq_nil_iff.1 hn)
  cases filter with
  | none =>
      have hsplit : updateText table xs none =
          "UPDATE ".toText ++
            (table ++ (" SET".toText ++ assignmentsText xs [])) := rfl
      have hfind :=
        Clause.find?_eq_none (unseen_assignmentsText hxs blanks_nil apart_nil) 0
      have hbounded := bounded_assignmentsText xs [] []
      rw [List.append_nil] at hbounded
      rw [hsplit, readUpdate_eq htable hbounded, hfind]
      simp only [Option.elim_none, List.take_length, Option.map_none,
        hassignments blanks_nil, hnot]
      rfl
  | some w =>
      have hw := hfilter w rfl
      have hsplit : updateText table xs (some w) =
          "UPDATE ".toText ++ (table ++ (" SET".toText ++
            (assignmentsText xs [.char ' '] ++
              ("WHERE".toText ++ ([.char ' '] ++ w))))) := by
        rw [updateText, assignmentsText, filterText]
        simp only [List.append_assoc]
        rfl
      have hspace : Bounded ([.char ' '] ++ w) := bounded_cons.2 (by decide)
      have hfind : Clause.filter.find? (assignmentsText xs [.char ' '] ++
          ("WHERE".toText ++ ([.char ' '] ++ w))) 0 =
            some ((assignmentsText xs [.char ' ']).length,
              (assignmentsText xs [.char ' ']).length +
                "WHERE".toText.length) :=
        Clause.find?_append
          (unseen_assignmentsText hxs blanks_space (apart_cons.2 (by decide)))
          (by rw [run_assignmentsText hxs blanks_space]; rfl)
          (by
            rw [assignmentsText, ← List.append_assoc]
            exact Clause.freeAfter_concat (by decide))
          (by decide) (Clause.after?_eq_some rfl
            (spells_self Clause.filter.firstWord) hspace)
          (Nat.zero_le _)
      have hbody : trim ([.char ' '] ++ w) = w := by
        rw [trim_append_of_blanks blanks_space, hw.trimmed.trim_eq]
      have hne' : (some w != some []) = true := by
        rw [bne_iff_ne]
        exact fun h => hw.ne_nil (Option.some.inj h)
      rw [hsplit, readUpdate_eq htable (bounded_assignmentsText xs _ _), hfind]
      simp only [Option.elim_some, List.take_left, Option.map_some,
        ← List.drop_drop, List.drop_left, hbody, hassignments blanks_space,
        hnot, hne', Bool.and_self]
      rfl

end RowSql.Statement
