import RowSql.Text.CaseFold
import RowSql.Text.Scan

/-!
# Clauses

A clause begins with its words, in any letter case, where the scan of the whole
text so far is outside of quotes and of parentheses. The words stand alone:
before them is a blank or the beginning of the text, after them a blank or its
end. A clause runs to the next one, and clauses are looked for in a fixed order,
each behind the one before.
-/

namespace RowSql

inductive Clause where
  | source
  | filter
  | order
  | limit
deriving DecidableEq, Repr

namespace Clause

def firstWord : Clause → Text
  | source => "FROM".toText
  | filter => "WHERE".toText
  | order => "ORDER".toText
  | limit => "LIMIT".toText

/-- The other words of a clause, which stand behind blanks. -/
def otherWords : Clause → List Text
  | order => ["BY".toText]
  | _ => []

/-- Whether a text begins with a blank or is empty. -/
def opensFree : Text → Bool
  | [] => true
  | c :: _ => isBlank c

/-- What follows words at the head of a text, each of which stands behind one
blank or more. -/
def afterOtherWords? : List Text → Text → Option Text
  | [], t => some t
  | word :: words, t =>
    if t.head?.any isBlank then
      match afterWord? word (Text.trimLeft t) with
      | some rest => afterOtherWords? words rest
      | none => none
    else none

/-- What follows the words of a clause at the head of a text. -/
def after? (clause : Clause) (t : Text) : Option Text :=
  match (afterWord? clause.firstWord t).bind
    (afterOtherWords? clause.otherWords) with
  | some rest => if opensFree rest then some rest else none
  | none => none

/-- Looks for a clause in what follows a position: `st` is the scan up to there,
and `free` says whether a word may begin there. -/
def findFrom? (clause : Clause) (start pos : Nat) (st : Scan) (free : Bool) :
    Text → Option (Nat × Nat)
  | [] => none
  | c :: s =>
    match if start ≤ pos && st.atTop && free then clause.after? (c :: s)
      else none with
    | some rest => some (pos, pos + ((c :: s).length - rest.length))
    | none => findFrom? clause start (pos + 1) (st.step c) (isBlank c) s

/-- Where the words of the first clause of a kind that does not begin before
`start` begin and end. -/
def find? (clause : Clause) (t : Text) (start : Nat) : Option (Nat × Nat) :=
  clause.findFrom? start 0 .start true t

/-- A clause's words in a text. -/
structure Span where
  clause : Clause
  start : Nat
  stop : Nat
deriving DecidableEq

/-- The clauses of a text, looked for in the order given, each behind the words
of the one found before. -/
def spans (t : Text) : List Clause → Nat → List Span
  | [], _ => []
  | clause :: clauses, pos =>
    match clause.find? t pos with
    | some (start, stop) => ⟨clause, start, stop⟩ :: spans t clauses stop
    -- a clause that is not there does not move the place to search from
    | none => spans t clauses pos

/-- Where the first of some spans begins, or the end of the text. -/
def boundary (t : Text) : List Span → Nat
  | [] => t.length
  | s :: _ => s.start

/-- The text of each clause without the blanks around it, which must not be
empty. -/
def bodies? (t : Text) : List Span → Option (List (Clause × Text))
  | [] => some []
  | s :: ss =>
    match Text.trim ((t.take (boundary t ss)).drop s.stop), bodies? t ss with
    | [], _ => none
    | _, none => none
    | body, some rest => some ((s.clause, body) :: rest)

/-- Splits a text into clauses. Nothing but blanks may stand before the
first. -/
def split? (clauses : List Clause) (t : Text) : Option (List (Clause × Text)) :=
  let found := spans t clauses 0
  if Text.trim (t.take (boundary t found)) = [] then bodies? t found else none

end Clause

end RowSql
