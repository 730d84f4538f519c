import RowSql.Text.Quoted

/-!
# The scan of a statement

Clauses and logical operators count only where the text up to them has closed
every quote and every parenthesis. Here a quote character right after a
backslash neither opens nor closes a span. Parentheses are not required to
balance: a closing one takes the depth below zero, and nothing counts until it
is back at zero.
-/

namespace RowSql

/-- What is known of the text read so far. -/
structure Scan where
  /-- The quote character that is open, if any. -/
  quote : Option CodePoint
  /-- Opening parentheses outside of quotes, less the closing ones. -/
  depth : Int
  /-- The last character was a backslash. -/
  escaped : Bool
deriving DecidableEq, Repr

namespace Scan

/-- Before the first character. -/
def start : Scan := ⟨none, 0, false⟩

/-- One more character. -/
def step (st : Scan) (c : CodePoint) : Scan :=
  let escaped := c == '\\'
  match st.quote with
  | none =>
    -- a quote character behind a backslash does not open anything
    if isQuote c then ⟨if st.escaped then none else some c, st.depth, escaped⟩
    else if c = '(' then ⟨none, st.depth + 1, escaped⟩
    else if c = ')' then ⟨none, st.depth - 1, escaped⟩
    else ⟨none, st.depth, escaped⟩
  | some q =>
    if c = q ∧ st.escaped = false then ⟨none, st.depth, escaped⟩
    else ⟨some q, st.depth, escaped⟩

/-- A whole text more. -/
def run (st : Scan) (t : Text) : Scan :=
  t.foldl step st

/-- Outside of quotes and of parentheses. -/
def atTop (st : Scan) : Bool :=
  st.quote.isNone && decide (st.depth = 0)

end Scan

end RowSql
