import RowSql.Number.Binary64
import RowSql.Text.Basic
import RowSql.Text.DecimalDigit

/-!
# Reading numbers

A numeral is a sign, digits with a point among or beside them, and a power of
ten; the infinities and the value that is no number have names. The digits may
be of any script. A numeral denotes an exact decimal, and the number read is the
binary64 number nearest to it.
-/

namespace RowSql

/-- The number that decimal digits spell, most significant digit first. -/
def ofDigits (digits : List Nat) : Nat :=
  digits.foldl (fun n d => 10 * n + d) 0

/-- The values of the decimal digits at the head of a text, and the rest. -/
def leadingDigits : Text → List Nat × Text
  | [] => ([], [])
  | c :: s =>
    match digit? c with
    | some d => let r := leadingDigits s; (d :: r.1, r.2)
    | none => ([], c :: s)

/-- Takes a sign off a text: whether it was a minus sign, and the rest. -/
def splitSign : Text → Bool × Text
  | '-' :: s => (true, s)
  | '+' :: s => (false, s)
  | s => (false, s)

/-- The power of ten that ends a numeral: nothing, or a mark, a sign and
digits. -/
def readExponent? : Text → Option Int
  | [] => some 0
  | c :: s =>
    if c = 'e' ∨ c = 'E' then
      let (negative, s) := splitSign s
      match leadingDigits s with
      | (d :: ds, []) =>
        some (if negative then -(ofDigits (d :: ds) : Int)
          else ofDigits (d :: ds))
      | _ => none
    else none

/-- The fraction digits after a point, if there is one, and the rest. -/
def fractionDigits : Text → List Nat × Text
  | '.' :: s => leadingDigits s
  | s => ([], s)

/-- Reads a numeral without its sign. At least one digit stands before the power
of ten. -/
def Binary64.ofNumeral? (negative : Bool) (t : Text) : Option Binary64 :=
  let (whole, s) := leadingDigits t
  let (fraction, s) := fractionDigits s
  match whole ++ fraction, readExponent? s with
  | d :: ds, some e =>
    some (.ofDecimal negative (ofDigits (d :: ds)) (e - fraction.length))
  | _, _ => none

/-- Reads a number. The names of the infinities and of the value that is no
number are read in any case. -/
def Binary64.ofText? (t : Text) : Option Binary64 :=
  let (negative, s) := splitSign t
  let name := s.map CodePoint.toLower
  if name = "inf".toText ∨ name = "infinity".toText then
    some (.infinite negative)
  else if name = "nan".toText then some .nan
  else ofNumeral? negative s

end RowSql
