import RowSql.Text.Basic
import RowSql.Text.Printable

/-!
# Texts inside of other data

A text that stands in a list is shown in quotes, so that it can be told where it
ends: in single ones, unless it holds a single quote and no double one. A
backslash and the quote that is used have a backslash before them, three line
and column marks have a letter of their own, and what is not printable is shown
by its number.
-/

namespace RowSql.Text

/-- The lowest hexadecimal digits of a number, as many as are asked for. -/
def hexDigits : Nat → Nat → Text
  | 0, _ => []
  | count + 1, n => hexDigits count (n / 16) ++ [hexDigit (n % 16)]

/-- A character that is not printable, by its number. -/
def escapedNumber (c : CodePoint) : Text :=
  if c.toNat < 0x100 then "\\x".toText ++ hexDigits 2 c.toNat
  else if c.toNat < 0x10000 then "\\u".toText ++ hexDigits 4 c.toNat
  else "\\U".toText ++ hexDigits 8 c.toNat

/-- A character as it is shown inside of quotes. -/
def escapedIn (quote c : CodePoint) : Text :=
  if c = quote ∨ c = '\\' then ['\\', c]
  else if c = '\t' then "\\t".toText
  else if c = '\n' then "\\n".toText
  else if c = '\r' then "\\r".toText
  else if isPrintable c then [c]
  else escapedNumber c

/-- A text as it is shown inside of other data. -/
def repr (t : Text) : Text :=
  let quote : CodePoint :=
    if t.contains '\'' && !t.contains '"' then '"' else '\''
  between quote (t.flatMap (escapedIn quote))

end RowSql.Text
