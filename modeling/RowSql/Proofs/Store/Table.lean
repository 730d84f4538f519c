import RowSql.Proofs.Json.Ascii
import RowSql.Proofs.Json.Reading
import RowSql.Proofs.Store.Replacement

/-!
# Tables, saved and loaded

Rows that have been loaded can be saved again, and what has been saved is loaded
as it was. Saving one table leaves every other as it is.
-/

namespace RowSql

namespace Store

variable {dir saved : Directory} {table other : Text} {rows : List Record}

theorem fileName_inj (h : fileName other = fileName table) : other = table :=
  List.append_cancel_right h

theorem fileName_of_tableOf? {name : Text} (h : tableOf? name = some table) :
    fileName table = name := by
  rw [tableOf?] at h
  split at h
  · next hname =>
      obtain ⟨u, rfl⟩ :=
        List.isSuffixOf_iff_suffix.1 (Bool.and_eq_true_iff.1 hname).1
      rw [List.length_append, Nat.add_sub_cancel, List.take_left] at h
      rw [fileName, ← Option.some.inj h]
  · cases h

theorem mem_tables_iff :
    table ∈ tables dir ↔ ∃ name ∈ dir.names, tableOf? name = some table := by
  rw [tables, List.mem_mergeSort, List.mem_filterMap]

/-- Storable rows are saved, and loaded as they were. -/
theorem exists_save (h : ∀ r ∈ rows, r.Storable) (dir : Directory)
    (table : Text) :
    ∃ saved, save dir table rows = .ok saved ∧ load saved table = .ok rows := by
  obtain ⟨text, htext, data, hdata, hrows⟩ := Json.exists_writeRows h
  have hascii := Json.ascii_of_writeRows htext
  refine ⟨dir.write (fileName table) (Utf8.encode text),
    by rw [save_eq, htext], ?_⟩
  rw [load, Directory.read?_write]
  simp only [rowsOfBytes, Utf8.decode_encode hascii, hascii.unifyLines_eq,
    rowsOfText, hdata, hrows]

/-- Saving a table leaves every other as it is. -/
theorem load_save_of_ne (h : save dir table rows = .ok saved)
    (hne : other ≠ table) :
    load saved other = load dir other := by
  rw [save_eq] at h
  split at h
  · cases h
    rw [load, load,
      Directory.read?_write_of_ne _ fun heq => hne (fileName_inj heq)]
  · cases h

/-- Rows that have been loaded can be saved. -/
theorem storable_of_load (h : load dir table = .ok rows) :
    ∀ r ∈ rows, r.Storable := by
  rw [load] at h
  split at h
  · cases h
    exact fun r hr => nomatch hr
  · rw [rowsOfBytes] at h
    split at h
    · cases h
    next text htext =>
    have hchars := (Utf8.ofChars_of_decode htext).unifyLines
    rw [rowsOfText] at h
    split at h
    · cases h
    next data hdata =>
    split at h
    · next hrows =>
        cases h
        exact Json.storable_of_rows? (Json.storable_of_read hchars hdata) hrows
    · cases h

/-- The rows that a table gives back as they were saved are the storable ones,
whatever the directory held before. -/
theorem saved_and_loaded_iff (dir : Directory) (table : Text)
    (rows : List Record) :
    (∃ saved, save dir table rows = .ok saved ∧ load saved table = .ok rows) ↔
      ∀ r ∈ rows, r.Storable := by
  constructor
  · rintro ⟨saved, _, hload⟩
    exact storable_of_load hload
  · intro h
    exact exists_save h dir table

/-- Rows of values that are easily taken for one another, under names that need
escapes. -/
def oddRows : List Record :=
  [.ofFields [("\"\\/\r\n\u2028😀".toText, .text "\x00\x1f\x7f'é\r".toText),
    ([], .text []), ("null".toText, .null), ("one".toText, .integer 1),
    ("point".toText, .text "1.0".toText),
      ("truth".toText, .boolean true),
      ("large".toText, .integer (-12345678901234567890))],
    .empty,
    .ofFields [("nan".toText, .double .nan),
      ("low".toText, .double (.infinite true)),
      ("nan ".toText, .text "NaN".toText),
      ("zero".toText, .double (.ofDecimal true 0 0)),
      ("tenth".toText, .double (.ofDecimal false 1 (-1)))]]

theorem saved_and_loaded_oddRows :
    ∃ saved, save .empty "t".toText oddRows = .ok saved ∧
      load saved "t".toText = .ok oddRows :=
  (saved_and_loaded_iff .empty "t".toText oddRows).2 (by decide +kernel)

end Store

end RowSql
