import RowSql.Text.Range

/-!
# Blank characters

What separates words and is trimmed off: Unicode's white space together with
the four ASCII information separators U+001C to U+001F. A zero-width space and
a byte order mark are not blank.
-/

namespace RowSql

/-- The blank characters, as closed ranges, ascending and apart. -/
def blankRanges : List (Nat × Nat) :=
  [(9, 13), (28, 32), (0x85, 0x85), (0xA0, 0xA0), (0x1680, 0x1680),
    (0x2000, 0x200A), (0x2028, 0x2029), (0x202F, 0x202F), (0x205F, 0x205F),
    (0x3000, 0x3000)]

/-- A character that separates words. -/
def isBlank (c : CodePoint) : Bool :=
  inRanges blankRanges c.toNat

end RowSql
