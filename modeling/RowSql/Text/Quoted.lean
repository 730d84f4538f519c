import RowSql.Text.Basic

/-!
# Quoted spans

A quote character opens a span when none is open, and only the same character
closes it; the other quote character stands for itself inside. A backslash has
no meaning here. Lists of values, assignments and placeholders are read by this
rule, which looks at one character at a time and remembers only the quote that
is open.
-/

namespace RowSql

/-- A character that can open a quoted span. -/
def isQuote (c : CodePoint) : Bool :=
  c == '"' || c == '\''

namespace Text

/-- The open quote after one more character: `none` outside of quotes. -/
def quoteStep (quote : Option CodePoint) (c : CodePoint) : Option CodePoint :=
  match quote with
  | none => if isQuote c then some c else none
  | some q => if c = q then none else some q

/-- Puts a character in front of the first of a list of pieces. -/
def consHead (c : CodePoint) : List Text → List Text
  | [] => [[c]]
  | p :: ps => (c :: p) :: ps

/-- Cuts a text at the delimiters that stand outside of quotes. A quote
character is never a delimiter. The result has one piece more than there were
cuts. -/
def cutOutside (isDelimiter : CodePoint → Bool) :
    Option CodePoint → Text → List Text
  | _, [] => [[]]
  | quote, c :: s =>
    if quote = none ∧ isQuote c = false ∧ isDelimiter c = true then
      [] :: cutOutside isDelimiter none s
    else
      consHead c (cutOutside isDelimiter (quoteStep quote c) s)

/-- Trims the pieces, and leaves out the last one when nothing remains of it. -/
def trimPieces : List Text → List Text
  | [] => []
  | [p] => if trim p = [] then [] else [trim p]
  | p :: q :: ps => trim p :: trimPieces (q :: ps)

/-- The items of a delimited list whose delimiters count outside of quotes
only. -/
def splitOutside (isDelimiter : CodePoint → Bool) (t : Text) : List Text :=
  trimPieces (cutOutside isDelimiter none t)

/-- The items of a list with commas between them. -/
def items (t : Text) : List Text :=
  splitOutside (· == ',') t

/-- A text without a quote character at its head. -/
def dropQuote : Text → Text
  | [] => []
  | c :: s => if isQuote c then s else c :: s

/-- A text without a quote character at its head and without one at its end.
The two are dropped independently, whether or not they are the same. -/
def stripQuotes (t : Text) : Text :=
  (dropQuote (dropQuote t).reverse).reverse

end Text

end RowSql
