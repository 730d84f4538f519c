import RowSql.Number.Shortest
import RowSql.Text.Repr
import RowSql.Value.Basic

/-!
# The text of a value

Every value has a text by which it is compared with others and shown. An array
and an object are written between brackets, with all that is inside of them
spelled so that it can be told apart. Where an integer has too many digits there
is no text.
-/

namespace RowSql.Value

mutual

/-- A value as it is shown inside of an array or an object. -/
def repr : Value → Text
  | .null => "None".toText
  | .boolean b => if b then "True".toText else "False".toText
  | .integer n => Text.ofInt n
  | .double x => x.toText
  | .decimal t => "Decimal('".toText ++ t ++ "')".toText
  | .text t => t.repr
  | .array items =>
    .char '[' :: Text.join ", ".toText (reprItems items) ++ [.char ']']
  | .object members =>
    .char '{' :: Text.join ", ".toText (reprMembers members) ++ [.char '}']

def reprItems : List Value → List Text
  | [] => []
  | v :: vs => v.repr :: reprItems vs

def reprMembers : List (Text × Value) → List Text
  | [] => []
  | (name, v) :: ms => (name.repr ++ ": ".toText ++ v.repr) :: reprMembers ms

end

/-- The text that stands for a value: a double that is a whole number is written
like an integer. -/
def toText : Value → Text
  | .null => []
  | .boolean b => if b then "true".toText else "false".toText
  | .integer n => Text.ofInt n
  | .double x =>
    match x.toInt? with
    | some n => Text.ofInt n
    | none => x.toText
  | .decimal t | .text t => t
  | .array items => repr (.array items)
  | .object members => repr (.object members)

/-- The text of a value, if all integers in it can be written. -/
def asText : Value → Except Overflow Text
  | .integer n =>
    if ShortInt n then .ok (Text.ofInt n) else .error .integerTooLong
  | .array items =>
    if (array items).Short then .ok (repr (.array items))
      else .error .integerTooLong
  | .object members =>
    if (object members).Short then .ok (repr (.object members))
    else .error .integerTooLong
  | v => .ok v.toText

theorem asText_eq_ite (v : Value) :
    v.asText = if v.Short then .ok v.toText else .error .integerTooLong := by
  cases v with
  | null | boolean | double | decimal | text => exact (if_pos trivial).symm
  | integer | array | object => rfl

end RowSql.Value
