import RowSql.Number.Binary64
import RowSql.Text.Basic

/-!
# Writing numbers

A number is written with the fewest digits that read back to it, and with the
nearest to it of those; of two that are equally near, with the even one. The
search tries one digit, then two, up to seventeen, and on each grid the two
decimals beside the number. Whether a decimal reads back is asked of the reader
itself. Were no decimal found, the exact one would be written.

The leading digit's exponent decides the layout: from -4 to 15 the digits stand
around a point, with `.0` after a whole number; beyond, one digit stands before
the point and a signed exponent of at least two digits follows.
-/

namespace RowSql

/-- `digits * 10 ^ exponent`. -/
structure Decimal where
  digits : Nat
  exponent : Int

/-- The exponent of the leading decimal digit of a number of units other than
zero. -/
def leadingExponent (units : Nat) : Int :=
  -- the factor makes even a single unit exceed one
  (Text.ofNat (units * Nat.pow 10 400 / unitsPerOne)).length - 401

/-- Whether a decimal reads back to a number of units. -/
def Decimal.readsBack (d : Decimal) (units : Nat) : Bool :=
  (Binary64.ofDecimal false d.digits d.exponent).place? == some (units : Int)

/-- The decimal on the grid `10 ^ exponent` that reads back to a number of
units, the nearer one when both of its neighbours do. -/
def Decimal.onGrid? (units : Nat) (exponent : Int) : Option Decimal :=
  let num := units * Nat.pow 10 (-exponent).toNat
  let den := unitsPerOne * Nat.pow 10 exponent.toNat
  let below := num / den
  let low : Decimal := ⟨below, exponent⟩
  let high : Decimal := ⟨below + 1, exponent⟩
  match low.readsBack units, high.readsBack units with
  | true, true =>
    -- of two that are equally near, the even one
    if 2 * num < (2 * below + 1) * den then some low
    else if (2 * below + 1) * den < 2 * num then some high
    else if below % 2 = 0 then some low else some high
  | true, false => some low
  | false, true => some high
  | false, false => none

/-- The decimal with the fewest digits that reads back to a number of units, if
one with at most seventeen does. -/
def Decimal.search? (units : Nat) : Option Decimal :=
  let first := leadingExponent units
  (List.range 17).findSome? fun (n : Nat) => onGrid? units (first - n)

/-- The decimal that is a number of units. -/
def Decimal.exact (units : Nat) : Decimal :=
  ⟨units * Nat.pow 5 bitsBelowOne, -bitsBelowOne⟩

/-- The decimal that is written for a number of units other than zero. -/
def Decimal.shortest (units : Nat) : Decimal :=
  (search? units).getD (exact units)

/-- Significant digits around a point that stands after the first `point` of
them, with zeros where there are none. -/
def aroundPoint (digits : Text) (point : Int) : Text :=
  if point ≤ 0 then
    "0.".toText ++ Text.replicate (-point).toNat '0' ++ digits
  else if point.toNat < digits.length then
    digits.take point.toNat ++ .char '.' :: digits.drop point.toNat
  else
    digits ++ Text.replicate (point.toNat - digits.length) '0' ++ ".0".toText

/-- Significant digits with a point after the first, unless it is the only
one. -/
def mantissa : Text → Text
  | d :: e :: ds => d :: '.' :: e :: ds
  | ds => ds

/-- A power of ten, with its sign and at least two digits. -/
def powerText (exponent : Int) : Text :=
  let written := Text.ofNat exponent.natAbs
  (if exponent < 0 then "e-" else "e+").toText ++ Text.replicate
    (2 - written.length) '0' ++ written

/-- Lays out significant digits with the point after the first `point` of
them. -/
def layOut (digits : Text) (point : Int) : Text :=
  if -4 < point ∧ point ≤ 16 then aroundPoint digits point
  else mantissa digits ++ powerText (point - 1)

def Decimal.toText (d : Decimal) : Text :=
  let written := Text.ofNat d.digits
  layOut (Text.dropTrailing '0' written) (written.length + d.exponent)

def magnitudeText (units : Nat) : Text :=
  if units = 0 then "0.0".toText else (Decimal.shortest units).toText

def Binary64.toText : Binary64 → Text
  | .nan => "nan".toText
  | .infinite negative => if negative then "-inf".toText else "inf".toText
  | .finite negative units _ =>
    (if negative then "-" else "").toText ++ magnitudeText units

end RowSql
