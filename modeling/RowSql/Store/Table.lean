import RowSql.Json.Reader
import RowSql.Json.Rows
import RowSql.Store.Directory

/-!
# Stored tables

The rows of a table are kept as JSON in a file named after the table. A table
without a file is empty. A file is read as UTF-8 with any line ends, and is
written in ASCII. New rows are put together in a temporary file, so a table's
file is replaced as a whole or not at all.
-/

namespace RowSql

/-- Why a table cannot be read or written. -/
inductive StoreError where
  /-- The file is not UTF-8. -/
  | undecodable (f : Utf8.Fault)
  /-- The file is not JSON: what is wrong, where in its text, and the text. -/
  | corrupt (table : Text) (p : Json.Problem) (text : Text) (pos : Nat)
  /-- An integer in the file has too many digits. -/
  | integerTooLong (digits : Nat)
  /-- The file holds no array of objects. -/
  | notRows (table : Text)
  /-- A row holds something that cannot be written. -/
  | unwritable (f : Json.WriteFault)
deriving DecidableEq

def StoreError.message : StoreError → Text
  | undecodable f => f.message
  | corrupt table p text pos =>
    "Corrupt table file for ".toText ++ table ++ ": ".toText ++ p.message ++
      ": ".toText
      ++ Json.place text pos
  | integerTooLong digits => tooManyDigits digits
  | notRows table =>
    "Table file for ".toText ++ table ++
      " must hold a JSON list of objects".toText
  | unwritable f => f.message

namespace Store

/-- What a table's name is followed by in the name of its file. -/
def suffix : Text := ".json".toText

/-- The name of a table's file. -/
def fileName (table : Text) : Text :=
  table ++ suffix

def faultError (table text : Text) : Json.Fault → StoreError
  | .problem p left => .corrupt table p text (text.length - left)
  | .integerTooLong digits => .integerTooLong digits

def rowsOfText (table text : Text) : Except StoreError (List Record) :=
  match Json.read text with
  | .error e => .error (faultError table text e)
  | .ok v =>
    match Json.rows? v with
    | some rows => .ok rows
    | none => .error (.notRows table)

def rowsOfBytes (table : Text) (bytes : Bytes) :
    Except StoreError (List Record) :=
  match Utf8.decode bytes with
  | .error e => .error (.undecodable e)
  | .ok text => rowsOfText table (Text.unifyLines text)

/-- The rows of a table. -/
def load (dir : Directory) (table : Text) : Except StoreError (List Record) :=
  match dir.read? (fileName table) with
  | none => .ok []
  | some bytes => rowsOfBytes table bytes

/-! ## Saving

A table is written to a temporary file first, part by part, and that file is
renamed. So a table that cannot be written leaves the old file as it is. -/

/-- The name of the file in which a table's new rows are put together. It is
hidden, it is no name of a table's file, and it is longer than the name of any
file there is. -/
def temporaryName (dir : Directory) (table : Text) : Text :=
  .char '.' :: table ++ .char '.' :: Text.replicate dir.longestName 'x' ++
    ".tmp".toText

/-- Writes parts behind each other to a file, up to the first that is
missing. -/
def writeParts (name : Text) :
    List (Except Json.WriteFault Text) → Directory →
    Except Json.WriteFault Unit × Directory
  | [], dir => (.ok (), dir)
  | .error e :: _, dir => (.error e, dir)
  | .ok t :: parts, dir =>
    writeParts name parts (dir.append name (Utf8.encode t))

/-- Replaces the rows of a table. They are put together in a temporary file,
which takes the place of the table's file when it is complete and is removed
when it cannot be completed. -/
def replace (dir : Directory) (table : Text) (rows : List Record) :
    Except StoreError Unit × Directory :=
  let temporary := temporaryName dir table
  match writeParts temporary (Json.rowParts rows) (dir.write temporary []) with
  | (.ok _, dir) => (.ok (), dir.rename temporary (fileName table))
  | (.error f, dir) => (.error (.unwritable f), dir.remove temporary)

/-- The directory in which a table has new rows. -/
def save (dir : Directory) (table : Text) (rows : List Record) :
    Except StoreError Directory :=
  match replace dir table rows with
  | (.ok _, saved) => .ok saved
  | (.error e, _) => .error e

/-! ## The tables of a directory

A table is listed by the name of its file. -/

/-- The table of which a file has the name. Hidden files are no tables. -/
def tableOf? (name : Text) : Option Text :=
  if suffix.isSuffixOf name && name.head? != some (.char '.') then
    some (name.take (name.length - suffix.length))
  else none

/-- The names of the tables that have a file, in order. -/
def tables (dir : Directory) : List Text :=
  (dir.names.filterMap tableOf?).mergeSort fun a b => decide (a ≤ b)

end Store

end RowSql
