import RowSql.Text.Blank

/-!
# Texts

Everything that is read here is scanned a character at a time, so a text is the
list of its code points, which are called characters elsewhere. Positions and
widths count them, and texts are ordered by their first differing one.
-/

namespace RowSql

/-- A text, as the list of its code points. -/
abbrev Text := List CodePoint

end RowSql

def String.toText (s : String) : RowSql.Text :=
  s.toList.map .char

namespace RowSql.Text

/-- The string that is shown for a text. -/
protected def toString (t : Text) : String :=
  String.ofList (t.map CodePoint.toChar)

/-- A text of characters. -/
def OfChars (t : Text) : Prop :=
  ∀ c ∈ t, ∃ a, c = .char a

/-- A text without the blanks at its head. -/
def trimLeft (t : Text) : Text :=
  t.dropWhile isBlank

/-- A text without the blanks at its end. -/
def trimRight (t : Text) : Text :=
  (t.reverse.dropWhile isBlank).reverse

/-- A text without the blanks at either end. -/
def trim (t : Text) : Text :=
  trimRight (trimLeft t)

/-- The texts in order, with a separator between neighbours. -/
def join (separator : Text) : List Text → Text
  | [] => []
  | [t] => t
  | t :: u :: rest => t ++ separator ++ join separator (u :: rest)

/-- What stands before and after the first occurrence of a character. -/
def cutAt? (separator : CodePoint) : Text → Option (Text × Text)
  | [] => none
  | c :: s =>
    if c = separator then some ([], s)
    else (cutAt? separator s).map fun p => (c :: p.1, p.2)

/-- A character a number of times. -/
abbrev replicate (n : Nat) (c : CodePoint) : Text :=
  List.replicate n c

/-- A text filled up with spaces on the right to a width. -/
def padRight (width : Nat) (t : Text) : Text :=
  t ++ replicate (width - t.length) ' '

/-- A text with the same character before and after it. -/
def between (c : CodePoint) (t : Text) : Text :=
  c :: t ++ [c]

/-- A text without the occurrences of a character at its end. -/
def dropTrailing (c : CodePoint) (t : Text) : Text :=
  (t.reverse.dropWhile (· == c)).reverse

/-- The order by first differing code point, a proper beginning first. -/
def compare (a b : Text) : Ordering :=
  if a < b then .lt else if b < a then .gt else .eq

/-- The digit of a number below ten. -/
def digitChar (d : Nat) : CodePoint :=
  Char.ofNat (48 + d)

/-- The hexadecimal digit of a number below sixteen, in lower case. -/
def hexDigit (d : Nat) : CodePoint :=
  Char.ofNat (if d < 10 then 48 + d else 87 + d)

/-- A natural number in decimal digits. -/
def ofNat (n : Nat) : Text :=
  if n < 10 then [digitChar n] else ofNat (n / 10) ++ [digitChar (n % 10)]
termination_by n
decreasing_by omega

/-- An integer in decimal digits, with a minus sign when it is negative. -/
def ofInt (n : Int) : Text :=
  if n < 0 then .char '-' :: ofNat n.natAbs else ofNat n.natAbs

end RowSql.Text
