import RowSql.Value

/-!
# Reading JSON, and what can go wrong

Where a text is not JSON, the fault says what is missing or wrong and how many
characters are left from there. The one other thing that cannot be read is an
integer with too many digits.
-/

namespace RowSql.Json

inductive Problem where
  | expectingValue
  | expectingName
  | expectingColon
  | expectingComma
  | unterminatedString
  | controlCharacter
  | invalidEscape
  | invalidUnicodeEscape
  | extraData
  | byteOrderMark
deriving DecidableEq, Repr

def Problem.message : Problem → Text
  | expectingValue => "Expecting value".toText
  | expectingName => "Expecting property name enclosed in double quotes".toText
  | expectingColon => "Expecting ':' delimiter".toText
  | expectingComma => "Expecting ',' delimiter".toText
  | unterminatedString => "Unterminated string starting at".toText
  | controlCharacter => "Invalid control character at".toText
  | invalidEscape => "Invalid \\escape".toText
  | invalidUnicodeEscape => "Invalid \\uXXXX escape".toText
  | extraData => "Extra data".toText
  | byteOrderMark => "Unexpected UTF-8 BOM (decode using utf-8-sig)".toText

inductive Fault where
  /-- A problem, with the number of characters from its place to the end. -/
  | problem (p : Problem) (left : Nat)
  /-- An integer with too many digits. -/
  | integerTooLong (digits : Nat)
deriving DecidableEq

/-- A problem at the head of what is left. -/
def fail {α : Type} (p : Problem) (rest : Text) : Except Fault α :=
  .error (.problem p rest.length)

/-- The number of characters since the last line feed of a text. -/
def column (t : Text) : Nat :=
  (t.reverse.takeWhile (· != CodePoint.char '\n')).length

/-- The words for a position in a text, by line, by column and by character. -/
def place (t : Text) (pos : Nat) : Text :=
  let before := t.take pos
  "line ".toText ++ Text.ofNat (before.count (CodePoint.char '\n') + 1) ++
    " column ".toText
    ++ Text.ofNat (column before + 1) ++ " (char ".toText ++ Text.ofNat pos ++
      ")".toText

/-- The characters between the tokens. -/
def isSpace (c : CodePoint) : Bool :=
  c == ' ' || c == '\t' || c == '\n' || c == '\r'

def skipSpace (t : Text) : Text :=
  t.dropWhile isSpace

/-- What follows a word at the head of a text. -/
def after? : Text → Text → Option Text
  | [], t => some t
  | _ :: _, [] => none
  | w :: ws, c :: s => if w = c then after? ws s else none

end RowSql.Json
