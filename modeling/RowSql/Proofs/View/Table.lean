import RowSql.Proofs.Number.Written
import RowSql.Proofs.Printable
import RowSql.Proofs.Record
import RowSql.Proofs.Text.Items
import RowSql.Proofs.View.Framed

/-!
# The table lines up

A table of rows without line feeds has a line for each row and five more. There
is one column for every name, in the order in which the names occur, and the
texts of a column stand below each other: each line of texts is as long as the
border, has a bar below each of its plus signs, and holds between two of them
one text with spaces around it. All of this is so for any rows, whichever names
they have, as long as one of them has a name at all. When none has, the border
is two signs wide, and the lines between the borders are wider by the two
spaces.
-/

namespace RowSql

open Text

/-- A value that is no text with a line feed. -/
def Value.OneLineHere : Value → Prop
  | .decimal t | .text t => .char '\n' ∉ t
  | _ => True

/-- No line feed stands in the text of a value, or in one inside of it. -/
def Value.OneLine (v : Value) : Prop :=
  v.Every OneLineHere

/-- No line feed stands in a name or a value. -/
def Record.OneLine (r : Record) : Prop :=
  ∀ f ∈ r.fields, .char '\n' ∉ f.1 ∧ f.2.OneLine

instance : DecidablePred Value.OneLineHere
  | .decimal t | .text t =>
      inferInstanceAs (Decidable (CodePoint.char '\n' ∉ t))
  | .null | .boolean _ | .integer _ | .double _ | .array _ | .object _ =>
      isTrue trivial

instance : DecidablePred Value.OneLine :=
  Value.decidableEvery Value.OneLineHere

instance (r : Record) : Decidable r.OneLine :=
  inferInstanceAs
    (Decidable (∀ f ∈ r.fields, CodePoint.char '\n' ∉ f.1 ∧ f.2.OneLine))

theorem Record.OneLine.value {r : Record} (h : r.OneLine) (name : Text) :
    (r.value name).OneLine := by
  rw [Record.value]
  cases hget : r.get? name with
  | none => trivial
  | some v => exact (h _ (Named.mem_of_get? hget)).2

namespace View

/-! ## Columns

Columns are named in the order in which their names come up, row by row.
That order is stated by first occurrences, without the accumulator that
finds them. -/

theorem firstOccurrences_of_mem {seen : List Text} {t : Text} (h : t ∈ seen)
    (ts : List Text) :
    firstOccurrences seen (t :: ts) = firstOccurrences seen ts :=
  if_pos h

theorem firstOccurrences_of_not_mem {seen : List Text} {t : Text} (h : t ∉ seen)
    (ts : List Text) :
    firstOccurrences seen (t :: ts) = t :: firstOccurrences (t :: seen) ts :=
  if_neg h

theorem mem_firstOccurrences {seen ts : List Text} {t : Text} :
    t ∈ firstOccurrences seen ts ↔ t ∈ ts ∧ t ∉ seen := by
  induction ts generalizing seen with
  | nil =>
      exact ⟨fun h => absurd h List.not_mem_nil,
        fun h => absurd h.1 List.not_mem_nil⟩
  | cons u ts ih =>
      by_cases hu : u ∈ seen
      · rw [firstOccurrences_of_mem hu, ih, List.mem_cons]
        refine ⟨fun h => ⟨.inr h.1, h.2⟩, fun h => ⟨h.1.resolve_left ?_, h.2⟩⟩
        intro htu
        exact h.2 (htu ▸ hu)
      · rw [firstOccurrences_of_not_mem hu, List.mem_cons, ih, List.mem_cons,
          List.mem_cons]
        by_cases htu : t = u
        · simp [htu, hu]
        · simp [htu]

/-- What occurs first is kept first. -/
theorem pairwise_firstOccurrences (seen ts : List Text) :
    (firstOccurrences seen ts).Pairwise fun a b => ts.idxOf a < ts.idxOf b := by
  induction ts generalizing seen with
  | nil => exact List.Pairwise.nil
  | cons u ts ih =>
      have hlater {a : Text} (ha : a ≠ u) :
          (u :: ts).idxOf a = ts.idxOf a + 1 := by
        rw [List.idxOf_cons, beq_eq_false_iff_ne.2 (Ne.symm ha), cond_false]
      have hne {seen : List Text} (hu : u ∈ seen) {a : Text}
          (ha : a ∈ firstOccurrences seen ts) :
          a ≠ u := by
        intro hau
        exact (mem_firstOccurrences.1 ha).2 (hau ▸ hu)
      have htail {seen : List Text} (hu : u ∈ seen) :
          (firstOccurrences seen ts).Pairwise
            fun a b => (u :: ts).idxOf a < (u :: ts).idxOf b := by
        refine (ih seen).imp_of_mem fun {a b} ha hb hab => ?_
        rw [hlater (hne hu ha), hlater (hne hu hb)]
        exact Nat.succ_lt_succ hab
      by_cases hu : u ∈ seen
      · rw [firstOccurrences_of_mem hu]
        exact htail hu
      · rw [firstOccurrences_of_not_mem hu]
        refine List.pairwise_cons.2 ⟨fun b hb => ?_, htail List.mem_cons_self⟩
        rw [List.idxOf_cons_self, hlater (hne List.mem_cons_self hb)]
        exact Nat.succ_pos _

/-- The names of some rows, as often as they occur. -/
def occurrences (rows : List Record) : List Text :=
  rows.flatMap fun r => r.fields.names

/-- Each name that occurs in some rows is there once, in the order of first
occurrence. -/
structure HeadsInOrder (rows : List Record) (names : List Text) : Prop where
  mem_iff (name : Text) : name ∈ names ↔ ∃ r ∈ rows, name ∈ r.fields.names
  nodup : names.Nodup
  inOrder :
      names.Pairwise fun a b =>
        (occurrences rows).idxOf a < (occurrences rows).idxOf b

theorem headsInOrder_columns (rows : List Record) :
    HeadsInOrder rows (columns rows) := by
  have hpairwise := pairwise_firstOccurrences [] (occurrences rows)
  refine ⟨fun name => ?_, hpairwise.imp fun hab heq => ?_, hpairwise⟩
  · rw [columns, mem_firstOccurrences, List.mem_flatMap]
    exact and_iff_left List.not_mem_nil
  · rw [heq] at hab
    exact Nat.lt_irrefl _ hab

/-! ## Widths

A column is as wide as the longest of its name and its cells, so each of them
fits, and padding makes all of them as wide as the column. -/

theorem le_foldl_max (size : Record → Nat) (rows : List Record) (least : Nat) :
    least ≤ rows.foldl (fun w r => max w (size r)) least ∧
      ∀ r ∈ rows, size r ≤ rows.foldl (fun w r => max w (size r)) least := by
  induction rows generalizing least with
  | nil => exact ⟨Nat.le_refl _, fun r hr => absurd hr List.not_mem_nil⟩
  | cons s rows ih =>
      obtain ⟨hleast, hrows⟩ := ih (max least (size s))
      rw [List.foldl_cons, List.forall_mem_cons]
      exact ⟨by omega, by omega, hrows⟩

theorem length_le_width (rows : List Record) (name : Text) :
    name.length ≤ width rows name :=
  (le_foldl_max (fun r => (cell (r.value name)).length) rows name.length).1

theorem length_cell_le_width {rows : List Record} {r : Record} (hr : r ∈ rows)
    (name : Text) :
    (cell (r.value name)).length ≤ width rows name :=
  (le_foldl_max (fun r => (cell (r.value name)).length) rows name.length).2 r hr

/-- A text filled up to a width is followed by spaces only. -/
theorem between_padRight (w : Nat) (t : Text) :
    between ' ' (padRight w t) =
      .char ' ' :: (t ++ replicate (w - t.length + 1) ' ') := by
  rw [between, padRight, List.cons_append, List.append_assoc, replicate,
    replicate, List.replicate_succ']

/-- What is null or not there is shown by a word. -/
theorem cell_of_absent {r : Record} {name : Text}
    (h : r.get? name = none ∨ r.get? name = some .null) :
    cell (r.value name) = "NULL".toText := by
  rw [Record.value]
  rcases h with h | h <;> rw [h] <;> rfl

/-! ## Alignment

The border frames widths, a line frames texts that are padded to them. So both
have the same length, and below each sign of the border a bar. -/

/-- A line of texts is lined up with a border: it is as long, with a bar below
each plus sign, and between two of them stand a space, the text of the column,
and nothing but spaces. -/
structure Aligned (rule : Text) (texts : List Text) (shown : Text) : Prop where
  length_eq : shown.length = rule.length
  length_offsets : (offsets '+' rule).length = texts.length + 1
  bars : ∀ k ∈ offsets '+' rule, shown[k]? = some (.char '|')
  texts : ∀ j t a b, texts[j]? = some t → (offsets '+' rule)[j]? = some a →
    (offsets '+' rule)[j + 1]? = some b →
      ∃ n, shown.extract (a + 1) b = .char ' ' :: (t ++ replicate (n + 1) ' ')

section

variable {names : List Text} {wide : Text → Nat} {text : Text → Text}

theorem border_eq_framed (hne : names ≠ []) :
    border (names.map wide) =
      framed '+' (names.map fun name => replicate (wide name + 2) '-') := by
  rw [border, List.map_map]
  exact between_join fun h => hne (List.map_eq_nil_iff.1 h)

theorem zipWith_padRight (names : List Text) (wide : Text → Nat)
    (text : Text → Text) :
    List.zipWith padRight (names.map wide) (names.map text) =
      names.map fun name => padRight (wide name) (text name) := by
  rw [List.zipWith_map, List.zipWith_self]

theorem line_eq_framed (hne : names ≠ []) :
    line (names.map wide) (names.map text) =
      framed '|' (names.map fun name =>
        between ' ' (padRight (wide name) (text name))) := by
  have hpadded :
      names.map (fun name => padRight (wide name) (text name)) ≠ [] :=
      fun h => hne (List.map_eq_nil_iff.1 h)
  have hcells :
      names.map (fun name => between ' ' (padRight (wide name) (text name))) =
        (names.map fun name => padRight (wide name) (text name)).map
          (between ' ') := by
    rw [List.map_map]
    rfl
  rw [line, zipWith_padRight, hcells,
    ← between_join fun h => hpadded (List.map_eq_nil_iff.1 h),
    join_spaced hpadded]
  simp [between, String.toText]

theorem aligned_line (hne : names ≠ [])
    (hfit : ∀ name ∈ names, (text name).length ≤ wide name) :
    Aligned (border (names.map wide)) (names.map text)
      (line (names.map wide) (names.map text)) := by
  have hrules :
      (names.map fun name => replicate (wide name + 2) '-').map List.length =
        names.map fun name => wide name + 2 := by
    simp
  have hcells :
      (names.map fun name => between ' ' (padRight (wide name) (text name))).map
        List.length = names.map fun name => wide name + 2 := by
    rw [List.map_map]
    refine List.map_congr_left fun name hname => ?_
    have hname := hfit name hname
    simp [between, padRight]
    omega
  have hplus : ∀ x ∈ names.map fun name => replicate (wide name + 2) '-',
      .char '+' ∉ x := by
    intro x hx hmem
    obtain ⟨name, _, rfl⟩ := List.mem_map.1 hx
    exact absurd (List.eq_of_mem_replicate hmem) (by decide)
  have hoffsets := offsets_framed hplus
  rw [hrules] at hoffsets
  rw [border_eq_framed hne, line_eq_framed hne]
  constructor
  · exact length_framed_congr (hcells.trans hrules.symm)
  · rw [hoffsets, length_markOffsets, List.length_map, List.length_map]
  · rw [hoffsets, ← hcells]
    exact fun k hk => getElem?_framed hk
  · intro j t a b ht ha hb
    rw [hoffsets, ← hcells] at ha hb
    rw [List.getElem?_map] at ht
    obtain ⟨name, hname, rfl⟩ := Option.map_eq_some_iff.1 ht
    refine ⟨wide name - (text name).length, ?_⟩
    rw [← between_padRight]
    exact extract_framed (by rw [List.getElem?_map, hname]; rfl) ha hb

end

section

variable {rows : List Record} (hcolumns : columns rows ≠ [])
include hcolumns

theorem aligned_header :
    Aligned (border ((columns rows).map (width rows))) (columns rows)
    (line ((columns rows).map (width rows)) (columns rows)) := by
  have hself :
      Aligned (border ((columns rows).map (width rows))) ((columns rows).map id)
        (line ((columns rows).map (width rows)) ((columns rows).map id)) :=
    aligned_line hcolumns fun name _ => length_le_width rows name
  rwa [List.map_id] at hself

theorem aligned_row {r : Record} (hr : r ∈ rows) :
    Aligned (border ((columns rows).map (width rows))) (cells (columns rows) r)
      (line ((columns rows).map (width rows)) (cells (columns rows) r)) :=
  aligned_line hcolumns fun name _ => length_cell_le_width hr name

/-- All lines but the last are as long as the border. -/
theorem length_of_mem_dropLast {t : Text}
    (ht : t ∈ (tableLines rows).dropLast) :
    t.length = (border ((columns rows).map (width rows))).length := by
  have hall : ∀ t ∈ (tableLines rows).dropLast,
      t.length = (border ((columns rows).map (width rows))).length := by
    rw [tableLines, List.dropLast_append_of_ne_nil (List.cons_ne_nil _ _)]
    simp only [List.dropLast_cons_cons, List.dropLast_singleton,
      List.forall_mem_append, List.forall_mem_cons, List.forall_mem_map]
    exact ⟨⟨⟨trivial, (aligned_header hcolumns).length_eq, trivial, nofun⟩,
      fun r hr => (aligned_row hcolumns hr).length_eq⟩, trivial, nofun⟩
  exact hall t ht

end

/-! ## Lines

The table is its lines with line feeds between them. They can be told apart only
if no name and no cell has a line feed of its own, which takes one look at every
way a cell is written. -/

theorem newline_not_mem_join {separator : Text} {ts : List Text}
    (hs : .char '\n' ∉ separator) (h : ∀ t ∈ ts, .char '\n' ∉ t) :
    .char '\n' ∉ join separator ts := by
  have hjoin : ∀ c ∈ join separator ts, c ≠ .char '\n' :=
    forall_mem_join (fun c hc heq => hs (heq ▸ hc)) fun t ht c hc heq =>
      h t ht (heq ▸ hc)
  exact fun hmem => hjoin _ hmem rfl

/-- Inside of other data a line feed is shown by a letter. -/
theorem newline_not_mem_repr {v : Value} (h : v.OneLine) :
    .char '\n' ∉ v.repr := by
  have hprint (c : CodePoint) (hc : isPrintable c = true) : c ≠ .char '\n' := by
    rintro rfl
    exact absurd hc (by decide)
  have hdecimals : v.Every (Value.DecimalOf (· ≠ .char '\n')) := by
    refine Value.Every.imp (fun w hw => ?_) h
    cases w with
    | decimal t => exact fun c hc heq => hw (heq ▸ hc)
    | null | boolean | integer | double | text | array | object => trivial
  exact fun hmem => Value.forall_mem_repr hprint hdecimals _ hmem rfl

theorem newline_not_mem_cell {v : Value} (h : v.OneLine) :
    .char '\n' ∉ cell v := by
  have hnumber {t : Text} (ht : t ⊆ numberCharacters) : .char '\n' ∉ t :=
    fun hmem => absurd (ht hmem) (by decide)
  cases v with
  | null => decide
  | boolean b => cases b <;> decide
  | integer n => exact hnumber (ofInt_subset_numberCharacters n)
  | double x => exact hnumber x.toText_subset_numberCharacters
  | decimal t => exact h
  | text t => exact h
  | array _ | object _ => exact newline_not_mem_repr h

theorem newline_not_mem_border (widths : List Nat) :
    .char '\n' ∉ border widths := by
  have hrules :
      .char '\n' ∉ join "+".toText
        (widths.map fun w => replicate (w + 2) '-') := by
    refine newline_not_mem_join (by decide) fun t ht hmem => ?_
    obtain ⟨w, _, rfl⟩ := List.mem_map.1 ht
    exact absurd (List.eq_of_mem_replicate hmem) (by decide)
  simpa [border, between] using hrules

theorem newline_not_mem_line {names : List Text} {wide : Text → Nat}
    {text : Text → Text} (h : ∀ name ∈ names, .char '\n' ∉ text name) :
    .char '\n' ∉ line (names.map wide) (names.map text) := by
  have htexts : .char '\n' ∉
      join " | ".toText
        (names.map fun name => padRight (wide name) (text name)) := by
    refine newline_not_mem_join (by decide) fun t ht hmem => ?_
    obtain ⟨name, hname, rfl⟩ := List.mem_map.1 ht
    rcases List.mem_append.1 hmem with hmem | hmem
    · exact h name hname hmem
    · exact absurd (List.eq_of_mem_replicate hmem) (by decide)
  rw [line, zipWith_padRight]
  simpa [String.toText] using htexts

theorem newline_not_mem_countLine (n : Nat) : .char '\n' ∉ countLine n := by
  have hdigits : .char '\n' ∉ Text.ofNat n :=
    fun hmem => absurd (ofNat_subset_numberCharacters n hmem) (by decide)
  simpa [countLine, String.toText] using hdigits

theorem newline_not_mem_of_mem_columns {rows : List Record}
    (h : ∀ r ∈ rows, r.OneLine) {name : Text} (hname : name ∈ columns rows) :
    .char '\n' ∉ name := by
  obtain ⟨r, hr, hmem⟩ := ((headsInOrder_columns rows).mem_iff name).1 hname
  obtain ⟨f, hf, rfl⟩ := List.mem_map.1 hmem
  exact (h r hr f hf).1

/-- The lines of a table are what was put together. -/
theorem splitOn_table {rows : List Record} (hne : rows ≠ [])
    (h : ∀ r ∈ rows, r.OneLine) :
    (table rows).splitOn (.char '\n') = tableLines rows := by
  have hheader : .char '\n' ∉
      line ((columns rows).map (width rows)) ((columns rows).map id) :=
    newline_not_mem_line fun name => newline_not_mem_of_mem_columns h
  have hbody (r : Record) (hr : r ∈ rows) : .char '\n' ∉
      line ((columns rows).map (width rows)) (cells (columns rows) r) :=
    newline_not_mem_line fun name _ =>
      newline_not_mem_cell ((h r hr).value name)
  have hlines : ∀ t ∈ tableLines rows, .char '\n' ∉ t := by
    rw [List.map_id] at hheader
    simp only [tableLines, List.forall_mem_append, List.forall_mem_cons,
      List.forall_mem_map]
    exact ⟨⟨⟨newline_not_mem_border _, hheader, newline_not_mem_border _,
      nofun⟩, hbody⟩, newline_not_mem_border _, newline_not_mem_countLine _,
      nofun⟩
  rw [table, if_neg hne]
  rw [Text.join_eq_intercalate]
  exact List.splitOn_intercalate _ hlines
    (List.append_ne_nil_of_right_ne_nil _ (List.cons_ne_nil _ _))

/-- The table of some rows without line feeds has five lines more than there are
rows: the names between borders, a line for each row, a border, and the count.
Each name that occurs heads one column, in order of first occurrence. When there
is a column, all lines but the last are as long, and the names and the texts of
each row are lined up with the border. When there is none, the lines that are no
border are two characters longer than it. What `render` shows is this table,
unless a value has an integer with too many digits to be written. -/
theorem table_aligned {rows : List Record} (hne : rows ≠ [])
    (h : ∀ r ∈ rows, r.OneLine) :
    HeadsInOrder rows (columns rows) ∧
    ∃ (rule header : Text) (body : List Text),
      (table rows).splitOn (.char '\n') =
        [rule, header, rule] ++ body ++ [rule, countLine rows.length] ∧
      ((table rows).splitOn (.char '\n')).length = rows.length + 5 ∧
      body.length = rows.length ∧
      (∀ r ∈ rows, ∀ name, r.get? name = none ∨ r.get? name = some .null →
        cell (r.value name) = "NULL".toText) ∧
      (columns rows ≠ [] →
        (∀ t ∈ ((table rows).splitOn (.char '\n')).dropLast,
          t.length = rule.length) ∧
        Aligned rule (columns rows) header ∧
        ∀ (i : Nat) (r : Record) (t : Text),
          rows[i]? = some r → body[i]? = some t →
          Aligned rule (cells (columns rows) r) t) ∧
      (columns rows = [] →
        rule.length = 2 ∧ header.length = 4 ∧ ∀ t ∈ body, t.length = 4) := by
  refine ⟨headsInOrder_columns rows, border ((columns rows).map (width rows)),
    line ((columns rows).map (width rows)) (columns rows),
    rows.map fun r =>
      line ((columns rows).map (width rows)) (cells (columns rows) r),
    splitOn_table hne h, ?_, List.length_map _, fun r _ name => cell_of_absent,
    fun hcolumns => ?_, fun hcolumns => ?_⟩
  · rw [splitOn_table hne h, tableLines]
    simp
  · refine ⟨fun t ht => ?_, aligned_header hcolumns, fun i r t hr ht => ?_⟩
    · rw [splitOn_table hne h] at ht
      exact length_of_mem_dropLast hcolumns ht
    · rw [List.getElem?_map, hr, Option.map_some, Option.some.injEq] at ht
      rw [← ht]
      exact aligned_row hcolumns (List.mem_of_getElem? hr)
  · rw [hcolumns]
    refine ⟨rfl, rfl, fun t ht => ?_⟩
    obtain ⟨r, _, rfl⟩ := List.mem_map.1 ht
    rfl

/-- Two rows with different names, one of them empty, and texts of different
widths. -/
def unevenRows : List Record :=
  [.ofFields [("a".toText, .integer (-10)), ([], .text "|+".toText)],
   .ofFields [("b".toText, .null), ("a".toText, .boolean true)], .empty]

theorem table_aligned_unevenRows :
    unevenRows ≠ [] ∧ (∀ r ∈ unevenRows, r.OneLine) ∧
      columns unevenRows = ["a".toText, [], "b".toText] ∧
      ((table unevenRows).splitOn (.char '\n')).length = 8 ∧
      ∃ n, ∀ t ∈ ((table unevenRows).splitOn (.char '\n')).dropLast,
        t.length = n := by
  have hne : unevenRows ≠ [] := List.cons_ne_nil _ _
  have hlines : ∀ r ∈ unevenRows, r.OneLine := by decide
  have hcolumns : columns unevenRows = ["a".toText, [], "b".toText] := by decide
  obtain ⟨_, rule, _, _, _, hlength, _, _, halign, _⟩ :=
    table_aligned hne hlines
  have hsome : columns unevenRows ≠ [] := hcolumns ▸ List.cons_ne_nil _ _
  exact ⟨hne, hlines, hcolumns, hlength, rule.length, (halign hsome).1⟩

/-- The lines of a table without columns are not of one length. -/
theorem lengths_table_empty :
    [Record.empty] ≠ [] ∧ (∀ r ∈ [Record.empty], r.OneLine) ∧
      ¬ ∃ n, ∀ t ∈ ((table [Record.empty]).splitOn (.char '\n')).dropLast,
        t.length = n := by
  have hlines : ∀ r ∈ [Record.empty], r.OneLine := by decide
  refine ⟨List.cons_ne_nil _ _, hlines, ?_⟩
  rintro ⟨n, hn⟩
  have hshown : (tableLines [Record.empty]).dropLast =
      ["++".toText, "|  |".toText, "++".toText, "|  |".toText, "++".toText] :=
      rfl
  rw [splitOn_table (List.cons_ne_nil _ _) hlines, hshown, List.forall_mem_cons,
    List.forall_mem_cons] at hn
  exact absurd (hn.1.trans hn.2.1.symm) (by decide)

end View

end RowSql
