import RowSql.Text.Basic

/-!
# The longest integer

Integers are exact, but one with more digits than the limit is refused wherever
one is read or written.
-/

namespace RowSql

/-- An integer is read from at most this many digits, and written in as many. -/
def digitLimit : Nat := 4300

/-- The words for an integer that is written with too many digits. -/
def tooManyDigits (digits : Nat) : Text :=
  "Exceeds the limit (".toText ++ Text.ofNat digitLimit
    ++ " digits) for integer string conversion: value has ".toText ++
      Text.ofNat digits
    ++ " digits; use sys.set_int_max_str_digits() to increase the limit".toText

/-- The words for an integer that would have to be written with too many
digits. -/
def tooManyDigitsToWrite : Text :=
  "Exceeds the limit (".toText ++ Text.ofNat digitLimit
    ++ " digits) for integer string conversion; ".toText
    ++ "use sys.set_int_max_str_digits() to increase the limit".toText

end RowSql
