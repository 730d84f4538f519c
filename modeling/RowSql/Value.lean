import RowSql.Number.Numeral
import RowSql.Value.Written

/-!
# Comparing values

Values are compared loosely: two values that both read as finite numbers are
compared as numbers, and any other two by their texts. An array or an object has
a text like any other value, which is no number. Integers are exact and are
compared through the nearest binary64 number, so what can go wrong is an integer
whose nearest number is infinite, and inside of an array or an object one that
is too long to be written.
-/

namespace RowSql

namespace Binary64

/-- The number nearest to an integer, unless that is infinite. -/
def ofInt? (n : Int) : Except Overflow Binary64 :=
  if (ofInt n).isFinite then .ok (ofInt n) else .error .integerTooLarge

/-- The number a boolean counts as. -/
def ofBool (b : Bool) : Binary64 :=
  ofInt (if b then 1 else 0)

/-- Reads a number from a text with blanks around it. Underscores between
digits are refused. -/
def ofField? (t : Text) : Option Binary64 :=
  if t.contains '_' then none else ofText? (Text.trim t)

end Binary64

namespace Value

/-- The finite number that a value reads as, if it does. -/
def number? : Value → Except Overflow (Option Binary64)
  | .null => .ok none
  | .boolean b => .ok (some (.ofBool b))
  | .integer n => (Binary64.ofInt? n).map some
  | .double x => .ok (if x.isFinite then some x else none)
  | .decimal t | .text t => .ok ((Binary64.ofField? t).filter (·.isFinite))
  | .array items =>
    (array items).asText.map fun t => (Binary64.ofField? t).filter (·.isFinite)
  | .object members =>
    (object members).asText.map fun t =>
      (Binary64.ofField? t).filter (·.isFinite)

/-- The number that stands for a value in an inequality: infinities count, and
what cannot be read is no number. -/
def toNumber : Value → Except Overflow Binary64
  | .null => .ok .nan
  | .boolean b => .ok (.ofBool b)
  | .integer n => Binary64.ofInt? n
  | .double x => .ok x
  | .decimal t | .text t => .ok ((Binary64.ofField? t).getD .nan)
  | .array items =>
    (array items).asText.map fun t => (Binary64.ofField? t).getD .nan
  | .object members =>
    (object members).asText.map fun t => (Binary64.ofField? t).getD .nan

/-- Whether there is a value at all. -/
def isPresent : Value → Bool
  | .null => false
  | _ => true

/-- Loose equality of present values: as numbers if both read as finite numbers,
else as texts. Nothing equals a value that is not there. -/
def equal (a b : Value) : Except Overflow Bool :=
  if a.isPresent && b.isPresent then do
    let x ← a.number?
    let y ← b.number?
    match x, y with
    | some x, some y => return x.eq y
    -- what holds an integer that cannot be written has been refused above
    | _, _ => return decide (a.toText = b.toText)
  else
    return false

/-- The order of two numbers. -/
def compareNumbers (x y : Binary64) : Ordering :=
  if x.lt y then .lt else if y.lt x then .gt else .eq

/-- The order in which rows are sorted: values that are not there come last, two
that read as finite numbers are ordered as numbers, and any other two as
texts. -/
def compare (a b : Value) : Except Overflow Ordering :=
  match a.isPresent, b.isPresent with
  | false, false => return .eq
  | false, true => return .gt
  | true, false => return .lt
  | true, true => do
    let x ← a.number?
    let y ← b.number?
    match x, y with
    | some x, some y => return compareNumbers x y
    | _, _ => return Text.compare a.toText b.toText

end Value

end RowSql
