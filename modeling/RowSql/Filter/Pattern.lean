import RowSql.Text.Basic
import RowSql.Text.CaseFold

/-!
# Wildcard patterns

In a pattern `%` stands for any run of characters, the empty one and line breaks
included, `_` for any one character, and any other character for itself in any
letter case.
-/

namespace RowSql.Filter

/-- What one character of a pattern stands for. -/
inductive Wildcard where
  | anyRun
  | anyOne
  | letter (c : CodePoint)
deriving DecidableEq

def Wildcard.ofChar (c : CodePoint) : Wildcard :=
  if c = '%' then .anyRun else if c = '_' then .anyOne else .letter c

abbrev Pattern := List Wildcard

namespace Pattern

def ofText (t : Text) : Pattern :=
  t.map Wildcard.ofChar

/-- Whether a pattern covers the whole of a text. Behind a run of characters the
pattern is tried on every end of the text. -/
def covers : Pattern → Text → Bool
  | [], t => t.isEmpty
  | .anyRun :: p, t =>
    (List.range (t.length + 1)).any fun n => covers p (t.drop n)
  | .anyOne :: p, t =>
    match t with
    | [] => false
    | _ :: s => covers p s
  | .letter a :: p, t =>
    match t with
    | [] => false
    | c :: s => sameLetter a c && covers p s

end Pattern

end RowSql.Filter
