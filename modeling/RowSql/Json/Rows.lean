import RowSql.Json.Quoted
import RowSql.Json.Scalar
import RowSql.Record

/-!
# Rows as JSON

Rows are an array of objects, laid out with one member a line and two spaces for
each level; what is nested in a member is laid out in the same way below it. A
decimal cannot be written, and an integer with too many digits neither.
-/

namespace RowSql.Json

/-- Why a value cannot be written. -/
inductive WriteFault where
  | decimal
  | integerTooLong
deriving DecidableEq, Repr

def WriteFault.message : WriteFault → Text
  | decimal => "Object of type Decimal is not JSON serializable".toText
  | integerTooLong => tooManyDigitsToWrite

def writeInteger (n : Int) : Except WriteFault Text :=
  if Value.ShortInt n then .ok (Text.ofInt n) else .error .integerTooLong

/-- The parts of an array or an object, each on a line of its own, with the
brackets around them. -/
def writeBlock (opening closing : CodePoint) (indent : Nat)
    (parts : List Text) : Text :=
  match parts with
  | [] => [opening, closing]
  | parts =>
    let newLine : Text := '\n' :: Text.replicate (indent + 2) ' '
    opening :: newLine ++ Text.join (',' :: newLine) parts
      ++ .char '\n' :: Text.replicate indent ' ' ++ [closing]

/-- A member of an object, with what is written for its value. -/
def member (name written : Text) : Text :=
  writeString name ++ ": ".toText ++ written

mutual

/-- What is written for a value that stands behind so many spaces. -/
def writeValue (indent : Nat) : Value → Except WriteFault Text
  | .null => .ok "null".toText
  | .boolean b => .ok (if b then "true".toText else "false".toText)
  | .integer n => writeInteger n
  | .double x => .ok (writeDouble x)
  | .decimal _ => .error .decimal
  | .text t => .ok (writeString t)
  | .array items =>
    (writeItems (indent + 2) items).map (writeBlock '[' ']' indent)
  | .object members =>
    (writeMembers (indent + 2) members).map (writeBlock '{' '}' indent)

def writeItems (indent : Nat) : List Value → Except WriteFault (List Text)
  | [] => return []
  | v :: vs => do
    let item ← writeValue indent v
    return item :: (← writeItems indent vs)

def writeMembers (indent : Nat) :
    List (Text × Value) → Except WriteFault (List Text)
  | [] => return []
  | (name, v) :: ms => do
    let written ← writeValue indent v
    return member name written :: (← writeMembers indent ms)

end

/-- A row is written like the object of its fields. -/
def writeRecord (r : Record) : Except WriteFault Text :=
  writeValue 2 (.object r.fields)

def writeRows (rows : List Record) : Except WriteFault Text :=
  (rows.mapM writeRecord).map (writeBlock '[' ']' 0)

/-- The parts in which rows are written one after the other, each behind what
opens its line; a row that cannot be written has no part. -/
def laterParts : List Record → List (Except WriteFault Text)
  | [] => [.ok "\n]".toText]
  | r :: rs => (writeRecord r).map (",\n  ".toText ++ ·) :: laterParts rs

/-- The parts in which all rows are written. -/
def rowParts : List Record → List (Except WriteFault Text)
  | [] => [.ok "[]".toText]
  | r :: rs => (writeRecord r).map ("[\n  ".toText ++ ·) :: laterParts rs

/-- The record of an object. -/
def record? : Value → Option Record
  | .object members => some (.ofFields members)
  | _ => none

/-- The rows of an array of objects. -/
def rows? : Value → Option (List Record)
  | .array items => items.mapM record?
  | _ => none

end RowSql.Json
