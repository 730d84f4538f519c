import RowSql.Record

/-!
# The table view

Rows are shown as a table with one column for every name that occurs, in the
order of first appearance. A column is as wide as its widest text, and every
text is filled up with spaces on the right, so the bars stand below each other.
The last line counts the rows.
-/

namespace RowSql.View

/-- A list without what has occurred before. -/
def firstOccurrences (seen : List Text) : List Text → List Text
  | [] => []
  | t :: ts =>
    if t ∈ seen then firstOccurrences seen ts
      else t :: firstOccurrences (t :: seen) ts

/-- The names that occur in some rows, each once, in order of first
appearance. -/
def columns (rows : List Record) : List Text :=
  firstOccurrences [] (rows.flatMap fun r => r.fields.names)

/-- The text in a cell. -/
def cell : Value → Text
  | .null => "NULL".toText
  | .boolean b => if b then "true".toText else "false".toText
  | .integer n => Text.ofInt n
  | .double x => x.toText
  | .decimal t | .text t => t
  | .array items => Value.repr (.array items)
  | .object members => Value.repr (.object members)

def cells (names : List Text) (r : Record) : List Text :=
  names.map fun name => cell (r.value name)

/-- The width of a column: that of its widest text. -/
def width (rows : List Record) (name : Text) : Nat :=
  rows.foldl (fun w r => max w (cell (r.value name)).length) name.length

def border (widths : List Nat) : Text :=
  Text.between '+'
    (Text.join "+".toText (widths.map fun w => Text.replicate (w + 2) '-'))

/-- A line of texts, each filled up to the width of its column. -/
def line (widths : List Nat) (texts : List Text) : Text :=
  "| ".toText ++ Text.join " | ".toText
    (List.zipWith Text.padRight widths texts)
    ++ " |".toText

/-- The line that counts the rows. -/
def countLine (n : Nat) : Text :=
  "(".toText ++ Text.ofNat n ++ " row(s))".toText

def tableLines (rows : List Record) : List Text :=
  let names := columns rows
  let widths := names.map (width rows)
  [border widths, line widths names, border widths]
    ++ rows.map (fun r => line widths (cells names r))
    ++ [border widths, countLine rows.length]

/-- The table of some rows. -/
def table (rows : List Record) : Text :=
  if rows = [] then "(0 rows)".toText
  else Text.join "\n".toText (tableLines rows)

/-- The rows hold only integers which can be written. -/
def AllShort (rows : List Record) : Prop :=
  ∀ r ∈ rows, ∀ f ∈ r.fields, f.2.Short

instance (rows : List Record) : Decidable (AllShort rows) :=
  inferInstanceAs (Decidable (∀ r ∈ rows, ∀ f ∈ r.fields, f.2.Short))

/-- The table that is shown for some rows. -/
def render (rows : List Record) : Except Overflow Text :=
  if AllShort rows then .ok (table rows) else .error .integerTooLong

end RowSql.View
