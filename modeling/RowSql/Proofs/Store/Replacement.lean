import RowSql.Proofs.Json.Rows
import RowSql.Proofs.Store.Directory
import RowSql.Store.Table

/-!
# Files replaced as a whole

While rows are put together in the temporary file, no other file changes,
whatever becomes of the parts. So when a part is missing and the temporary file
is removed, the directory is what it was; and when all are there and the file
takes its place, nothing has changed but the file of the table, which holds all
rows. That it happened by way of another file can no longer be seen.
-/

namespace RowSql

/-! ## Rows in parts

The encoder hands out the file in parts, one for each row with what stands
before it. Put together they are the text of the rows, or fail with the first
row that has none. -/

namespace Json

/-- Parts behind each other, if none is missing. -/
def assembled : List (Except WriteFault Text) → Except WriteFault Text
  | [] => .ok []
  | part :: parts => do
    let t ← part
    let s ← assembled parts
    return t ++ s

theorem join_cons (separator t : Text) (ts : List Text) :
    Text.join separator (t :: ts) = t ++ ts.flatMap (separator ++ ·) := by
  induction ts generalizing t with
  | nil => exact (List.append_nil t).symm
  | cons u us ih =>
      rw [Text.join, ih, List.flatMap_cons, List.append_assoc,
        List.append_assoc]

theorem assembled_laterParts (rows : List Record) :
    assembled (laterParts rows) = (rows.mapM writeRecord).map fun ts =>
      ts.flatMap (",\n  ".toText ++ ·) ++ "\n]".toText := by
  induction rows with
  | nil => rfl
  | cons r rs ih =>
      rw [laterParts, assembled, ih, List.mapM_cons]
      cases writeRecord r with
      | error e => rfl
      | ok t =>
          cases rs.mapM writeRecord with
          | error e => rfl
          | ok ts =>
              show Except.ok ((",\n  ".toText ++ t) ++
                (ts.flatMap (",\n  ".toText ++ ·) ++ "\n]".toText))
                = Except.ok ((t :: ts).flatMap (",\n  ".toText ++ ·) ++
                  "\n]".toText)
              rw [List.flatMap_cons, List.append_assoc (",\n  ".toText ++ t)]

/-- The parts in which rows are written make up all that is written. -/
theorem assembled_rowParts (rows : List Record) :
    assembled (rowParts rows) = writeRows rows := by
  cases rows with
  | nil => rfl
  | cons r rs =>
      rw [rowParts, assembled, assembled_laterParts, writeRows, List.mapM_cons]
      cases writeRecord r with
      | error e => rfl
      | ok t =>
          cases rs.mapM writeRecord with
          | error e => rfl
          | ok ts =>
              show Except.ok _ = Except.ok (writeBlock '[' ']' 0 (t :: ts))
              rw [writeBlock_cons, join_cons]
              simp only [List.append_assoc, List.cons_append]
              rfl

end Json

namespace Store

variable {dir : Directory} {name table other : Text}
  {parts : List (Except Json.WriteFault Text)} {rows : List Record}

/-! ## Writing parts

The parts go one by one to the temporary file. If one fails, the file holds
those before it and is removed, and then the directory is what it was. -/

/-- Only the file that is written changes. -/
theorem read?_writeParts_of_ne (h : other ≠ name)
    (parts : List (Except Json.WriteFault Text)) (dir : Directory) :
    (writeParts name parts dir).2.read? other = dir.read? other := by
  induction parts generalizing dir with
  | nil => rfl
  | cons part parts ih =>
      cases part with
      | error e => rfl
      | ok t => rw [writeParts, ih, Directory.read?_append_of_ne dir h]

theorem writeParts_of_error {e : Json.WriteFault}
    (h : Json.assembled parts = .error e) (name : Text) (dir : Directory) :
    (writeParts name parts dir).1 = .error e := by
  induction parts generalizing dir with
  | nil => cases h
  | cons part parts ih =>
      cases part with
      | error e' =>
          cases h
          rfl
      | ok t =>
          rw [Json.assembled] at h
          cases hrest : Json.assembled parts with
          | error e' =>
              rw [hrest] at h
              rw [writeParts, ih (hrest.trans h)]
          | ok s =>
              rw [hrest] at h
              cases h

/-- Parts of which none is missing are all written. -/
theorem writeParts_of_ok {text : Text} (h : Json.assembled parts = .ok text)
    {bytes : Bytes} (hread : dir.read? name = some bytes) :
    (writeParts name parts dir).1 = .ok () ∧
      (writeParts name parts dir).2.read? name =
        some (bytes ++ Utf8.encode text) := by
  induction parts generalizing dir bytes text with
  | nil =>
      cases h
      exact ⟨rfl, hread.trans (congrArg some (List.append_nil bytes).symm)⟩
  | cons part parts ih =>
      cases part with
      | error e => cases h
      | ok t =>
          rw [Json.assembled] at h
          cases hrest : Json.assembled parts with
          | error e =>
              rw [hrest] at h
              cases h
          | ok s =>
              rw [hrest] at h
              have htext : t ++ s = text := Except.ok.inj h
              have hmore := dir.read?_append name (Utf8.encode t)
              rw [hread, Option.getD_some] at hmore
              obtain ⟨hdone, hall⟩ := ih hrest hmore
              refine ⟨hdone, hall.trans ?_⟩
              rw [← htext, Utf8.encode, Utf8.encode, Utf8.encode,
                List.flatMap_append, List.append_assoc]

/-- A temporary file that is given up leaves no trace, whatever was written to
it. -/
theorem remove_writeParts (h : dir.read? name = none)
    (parts : List (Except Json.WriteFault Text)) :
    (writeParts name parts (dir.write name [])).2.remove name = dir := by
  refine Directory.ext_read? fun other => ?_
  by_cases hn : other = name
  · rw [hn, Directory.read?_remove, h]
  · rw [Directory.read?_remove_of_ne _ hn, read?_writeParts_of_ne hn,
      dir.read?_write_of_ne hn]

theorem read?_temporaryName (dir : Directory) (table : Text) :
    dir.read? (temporaryName dir table) = none := by
  refine Directory.read?_eq_none_of_lt ?_
  simp only [temporaryName, List.length_append, List.length_cons,
    List.length_replicate]
  omega

/-! ## Replacing

So a replacement either fails and leaves the directory as it was, or comes to
one write of the whole text. -/

/-- Rows that cannot be written leave the directory as it is. -/
theorem replace_of_error {e : Json.WriteFault}
    (h : Json.writeRows rows = .error e) (dir : Directory) (table : Text) :
    replace dir table rows = (.error (.unwritable e), dir) := by
  have hfail := writeParts_of_error ((Json.assembled_rowParts rows).trans h)
    (temporaryName dir table) (dir.write (temporaryName dir table) [])
  have hclean :=
    remove_writeParts (read?_temporaryName dir table) (Json.rowParts rows)
  rw [replace]
  split
  · next hdone =>
      rw [hdone] at hfail
      cases hfail
  · next hdone =>
      rw [hdone] at hclean hfail
      rw [hclean, Except.error.inj hfail]

/-- Rows that can be written are all that changes. -/
theorem replace_of_ok {text : Text} (h : Json.writeRows rows = .ok text)
    (dir : Directory) (table : Text) :
    replace dir table rows =
      (.ok (), dir.write (fileName table) (Utf8.encode text)) := by
  obtain ⟨hdone, hall⟩ :=
    writeParts_of_ok ((Json.assembled_rowParts rows).trans h)
      (dir.read?_write (temporaryName dir table) [])
  have hclean :=
    remove_writeParts (read?_temporaryName dir table) (Json.rowParts rows)
  rw [replace]
  split
  · next hwritten =>
      rw [hwritten] at hall hclean
      rw [Directory.rename_eq hall, hclean]
      rfl
  · next hwritten =>
      rw [hwritten] at hdone
      cases hdone

theorem save_eq (dir : Directory) (table : Text) (rows : List Record) :
    save dir table rows =
      match Json.writeRows rows with
      | .ok text => .ok (dir.write (fileName table) (Utf8.encode text))
      | .error e => .error (.unwritable e) := by
  rw [save]
  cases h : Json.writeRows rows with
  | error e => rw [replace_of_error h]
  | ok text => rw [replace_of_ok h]

end Store

end RowSql
