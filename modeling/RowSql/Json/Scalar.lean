import RowSql.Json.Basic
import RowSql.Number.DigitLimit
import RowSql.Number.Numeral

/-!
# JSON numbers and names

A number without a point and without a power of ten is an integer; any other is
the binary64 number nearest to it. Beside the three names of JSON the names of
the infinities and of the value that is no number are read and written.
-/

namespace RowSql.Json

/-- The values of the ASCII digits at the head of a text, and the rest. -/
def asciiDigits : Text → List Nat × Text
  | [] => ([], [])
  | c :: s =>
    match asciiDigit? c with
    | some d => (d :: (asciiDigits s).1, (asciiDigits s).2)
    | none => ([], c :: s)

/-- Reads the digits before a point: a zero alone, or digits that do not begin
with one. -/
def readWhole? : Text → Option (List Nat × Text)
  | '0' :: s => some ([0], s)
  | t =>
    match asciiDigits t with
    | ([], _) => none
    | r => some r

/-- Reads a point and the digits behind it, if there are any. -/
def readFraction? : Text → Option (List Nat × Text)
  | '.' :: s =>
    match asciiDigits s with
    | ([], _) => none
    | r => some r
  | _ => none

/-- Reads a power of ten, if there is one. -/
def readPower? : Text → Option (Int × Text)
  | [] => none
  | c :: s =>
    if c = 'e' ∨ c = 'E' then
      let (negative, s) := splitSign s
      match asciiDigits s with
      | ([], _) => none
      | (ds, r) =>
        some (if negative then -(ofDigits ds : Int) else ofDigits ds, r)
    else none

def integer (negative : Bool) (digits : List Nat) : Except Fault Value :=
  if digitLimit < digits.length then .error (.integerTooLong digits.length)
  else .ok (.integer (if negative then -(ofDigits digits : Int)
    else ofDigits digits))

/-- Reads a number behind its sign. -/
def readUnsigned? (negative : Bool) (t : Text) :
    Option (Except Fault Value × Text) :=
  match readWhole? t with
  | none => none
  | some (whole, s) =>
    match readFraction? s with
    | some (fraction, s) =>
      let (power, s) := (readPower? s).getD (0, s)
      some (.ok (.double
        (.ofDecimal negative (ofDigits (whole ++ fraction))
          (power - fraction.length))), s)
    | none =>
      -- a point without digits behind it is no part of the number
      match readPower? s with
      | some (power, s) =>
        some (.ok (.double (.ofDecimal negative (ofDigits whole) power)), s)
      | none => some (integer negative whole, s)

def readNumber? : Text → Option (Except Fault Value × Text)
  | '-' :: s => readUnsigned? true s
  | t => readUnsigned? false t

def namedValues : List (Text × Value) :=
  [("null".toText, .null), ("true".toText, .boolean true),
    ("false".toText, .boolean false), ("NaN".toText, .double .nan),
    ("Infinity".toText, .double (.infinite false)),
   ("-Infinity".toText, .double (.infinite true))]

def readNamed? (t : Text) : Option (Value × Text) :=
  namedValues.findSome? fun p => (after? p.1 t).map fun rest => (p.2, rest)

/-- Reads a name or a number. -/
def readScalar (t : Text) : Except Fault (Value × Text) :=
  match readNamed? t with
  | some r => .ok r
  | none =>
    match readNumber? t with
    | some (v, rest) => v.map fun v => (v, rest)
    | none => fail .expectingValue t

def writeDouble : Binary64 → Text
  | .nan => "NaN".toText
  | .infinite negative =>
    if negative then "-Infinity".toText else "Infinity".toText
  | x => x.toText

end RowSql.Json
