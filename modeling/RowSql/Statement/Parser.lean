import RowSql.Number.Numeral
import RowSql.Statement.Clause
import RowSql.Statement.JoinReader
import RowSql.Text.Quoted

/-!
# Reading statements

A statement is a text without the blanks around it and without one semicolon at
its end. Its first word decides what shape it must have. Whatever is wrong with
the shape, and wherever it is, the error names the kind and the whole statement;
only a limit with too many digits is an error of its own.
-/

namespace RowSql.Statement

/-! ## The clauses' bodies

A body has been trimmed, and nothing may be left of it behind what is read. -/

/-- Reads the body of an ORDER BY clause: a field, and perhaps a direction. -/
def readOrder? (body : Text) : Option (Text × Direction) :=
  match (⟨body, 0⟩ : Cursor).identifier true with
  | (none, _) => none
  | (some field, c) =>
    -- ascending is what is meant when no direction is named
    if c.atEnd.1 then some (field, .ascending)
    else
      let (word, c) := c.popWord
      if !c.atEnd.1 then none
      else if upper word = "ASC".toText then some (field, .ascending)
      else if upper word = "DESC".toText then some (field, .descending)
      else none

/-- The value of a text of ASCII digits. -/
def readDigits? (t : Text) : Option Nat :=
  (t.mapM asciiDigit?).map ofDigits

def readLimit (body : Text) : Except Fault Nat :=
  match readDigits? body with
  | some n =>
    if digitLimit < body.length then .error (.limitTooLong body.length)
      else .ok n
  | none => .error .shape

/-! ## The four kinds

Each kind has its own reader behind its first word. A reader that fails has
found the wrong shape, and the error then names the kind and the whole
statement, whatever was wrong. -/

/-- The columns of a SELECT: texts between commas, quoted or not, none of them
blank. -/
def readColumns? (t : Text) : Option (List Text) :=
  let columns := (t.splitOn (.char ',')).map Text.trim
  if columns.contains [] then none else some columns

/-- Reads a clause's body, if the clause is there. -/
def readClause {α : Type} (clauses : List (Clause × Text)) (clause : Clause)
    (read : Text → Except Fault α) : Except Fault (Option α) :=
  match clauses.lookup clause with
  | some body => (read body).map some
  | none => .ok none

def readSelect (t : Text) : Except Fault Select := do
  let c : Cursor := ⟨t, Kind.select.word.length⟩
  let (start, stop) ← required (Clause.source.find? c.rest 0)
  let columns ← required (readColumns? (c.rest.take start))
  let (table, c) ← readName false (c.advance stop)
  let (joins, c) ← readJoins c
  let clauses ← required (Clause.split? [.filter, .order, .limit] c.rest)
  let order ← readClause clauses .order fun body => required (readOrder? body)
  let limit ← readClause clauses .limit readLimit
  return { table, columns, filter := clauses.lookup .filter, order,
           limit := limit.map Int.ofNat, joins }

/-- Reads an INSERT statement: the columns end at the first closing parenthesis,
the values at the last character of the statement. -/
def readInsert (t : Text) : Except Fault Insert := do
  let c : Cursor := ⟨t, Kind.insert.word.length⟩
  let c ← passWord "INTO".toText c
  let (table, c) ← readName false c
  let c ← passText ['('] c
  let (columnsText, _) ← required (Text.cutAt? ')' c.rest)
  let c ← passWord "VALUES".toText (c.advance (columnsText.length + 1))
  let c ← passText ['('] c
  ensure (c.rest.getLast? == some (.char ')'))
  let columns := Text.items columnsText
  let values := (Text.items c.rest.dropLast).map Text.stripQuotes
  ensure (!columns.isEmpty && !values.isEmpty)
  return { table, columns, values }

/-- Reads one assignment. A text without an equals sign is none. -/
def readAssignment? (t : Text) : Option (Text × Text) :=
  (Text.cutAt? '=' t).map fun p =>
    (Text.trim p.1, Text.stripQuotes (Text.trim p.2))

def readUpdate (t : Text) : Except Fault Update := do
  let (table, c) ← readName false ⟨t, Kind.update.word.length⟩
  let c ← passWord "SET".toText c
  let span := Clause.filter.find? c.rest 0
  -- without a filter the assignments go on to the end
  let assignmentsText := c.rest.take (span.elim c.rest.length Prod.fst)
  let filter := span.map fun p => Text.trim (c.rest.drop p.2)
  ensure (Text.trim assignmentsText != [] && filter != some [])
  return {
    table, filter
    assignments := (Text.items assignmentsText).filterMap readAssignment? }

def readDelete (t : Text) : Except Fault Delete := do
  let c ← passWord "FROM".toText ⟨t, Kind.delete.word.length⟩
  let (table, c) ← readName false c
  let clauses ← required (Clause.split? [.filter] c.rest)
  return { table, filter := clauses.lookup .filter }

def readAs (kind : Kind) (t : Text) : Except Fault Statement :=
  match kind with
  | .select => (readSelect t).map .select
  | .insert => (readInsert t).map .insert
  | .update => (readUpdate t).map .update
  | .delete => (readDelete t).map .delete

/-- A text without one semicolon at its end and the blanks before that. -/
def dropTerminator (t : Text) : Text :=
  if t.getLast? = some (.char ';') then Text.trimRight t.dropLast else t

/-- The statement in a text, without what does not belong to it. -/
def bare (t : Text) : Text :=
  dropTerminator (Text.trim t)

/-- The first word of a statement, in upper case. -/
def leadingWord (t : Text) : Text :=
  upper (t.takeWhile fun c => !isBlank c)

/-- Reads a statement. -/
def parse (t : Text) : Except ParseError Statement :=
  if bare t = [] then .error (.unsupported [])
  else
    match Kind.ofWord? (leadingWord (bare t)) with
    | some kind =>
      (readAs kind (bare t)).mapError (Fault.toError kind.word (bare t))
    | none => .error (.unsupported (leadingWord (bare t)))

end RowSql.Statement
