import RowSql.Text.Quoted
import RowSql.Value.Written

/-!
# Binding values

A question mark outside of quotes is a placeholder, and each placeholder takes
one value, in order. A text is written in quotes of a kind that it does not
hold, so no part of a value can close its own quotes. An array or an object is
written like the text that it is shown as.
-/

namespace RowSql

/-- Why values cannot be bound. -/
inductive BindingError where
  | notEnough
  | tooMany
  | null
  | bothQuotes
  | overflow (e : Overflow)
deriving DecidableEq, Repr

def BindingError.message : BindingError → Text
  | notEnough => "Not enough parameters for SQL placeholders".toText
  | tooMany => "Too many parameters for SQL placeholders".toText
  | null => "NULL parameters are not supported".toText
  | bothQuotes =>
    "String parameters cannot contain both quote characters".toText
  | overflow e => e.message

namespace Binding

/-- A text in quotes of a kind that it does not hold. -/
def quoted (t : Text) : Except BindingError Text :=
  if !t.contains '"' then .ok (Text.between '"' t)
  else if !t.contains '\'' then .ok (Text.between '\'' t)
  else .error .bothQuotes

/-- How a value is written in a statement. -/
def literal : Value → Except BindingError Text
  | .null => .error .null
  | .boolean b => .ok (if b then "true".toText else "false".toText)
  | .integer n => (Value.integer n).asText.mapError .overflow
  | .double x => .ok x.toText
  | .decimal t => .ok t
  | .text t => quoted t
  | .array items => do
    quoted (← (Value.array items).asText.mapError .overflow)
  | .object members => do
    quoted (← (Value.object members).asText.mapError .overflow)

/-- Puts values in the place of the placeholders of what follows a quote
state. -/
def bindFrom (quote : Option CodePoint) :
    Text → List Value → Except BindingError Text
  | [], [] => .ok []
  | [], _ :: _ => .error .tooMany
  | c :: s, values =>
    if quote = none ∧ c = '?' then
      match values with
      | [] => .error .notEnough
      | v :: values => do
        let written ← literal v
        -- a written value closes the quotes that it opens
        let rest ← bindFrom none s values
        return written ++ rest
    else
      (bindFrom (Text.quoteStep quote c) s values).map (c :: ·)

/-- Puts values in the place of the placeholders of a text. -/
def bind (t : Text) (values : List Value) : Except BindingError Text :=
  bindFrom none t values

end Binding

end RowSql
