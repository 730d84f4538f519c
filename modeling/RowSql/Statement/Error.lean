import RowSql.Number.DigitLimit

/-!
# What a text is not

A text is no statement when it is empty or begins with no known word, when it is
not of the shape that its first word asks for, or when its limit has more digits
than are read.
-/

namespace RowSql

/-- Why a text is not a statement. -/
inductive ParseError where
  /-- The first word, in upper case, names no kind of statement. -/
  | unsupported (word : Text)
  /-- The whole statement, without what was trimmed off it, is not of its kind's
  shape. -/
  | malformed (kind statement : Text)
  /-- The limit has too many digits. -/
  | limitTooLong (digits : Nat)
deriving DecidableEq

def ParseError.message : ParseError → Text
  | unsupported word =>
    "Unsupported statement: ".toText ++ if word = [] then
      "empty SQL statement".toText else word
  | malformed kind statement =>
    "Malformed ".toText ++ kind ++ " statement: ".toText ++ statement
  | limitTooLong digits => tooManyDigits digits

end RowSql
