import RowSql.Binding
import RowSql.Query.Basic
import RowSql.Statement.Parser
import RowSql.Store.Table

/-!
# The database

A statement is bound, read and run on the tables of a directory. Only a
statement that writes and has succeeded in everything else changes the
directory, and then only the file of its own table.
-/

namespace RowSql

/-- Whatever can go wrong with a statement. -/
inductive DatabaseError where
  | binding (e : BindingError)
  | parse (e : ParseError)
  | store (e : StoreError)
  | overflow (e : Overflow)
  | noTables
deriving DecidableEq

def noTablesMessage : Text :=
  "JOIN requires a table resolver".toText

def DatabaseError.message : DatabaseError → Text
  | binding e => e.message
  | parse e => e.message
  | store e => e.message
  | overflow e => e.message
  | noTables => noTablesMessage

def QueryError.toDatabaseError : QueryError StoreError → DatabaseError
  | noTables => .noTables
  | table e => .store e
  | overflow e => .overflow e

namespace Database

/-- The statement in a text, into which values are bound if there are any to
bind. Binding no values is not the same as not binding. -/
def read (t : Text) (values : Option (List Value)) :
    Except DatabaseError Statement :=
  match values with
  | none => (Statement.parse t).mapError .parse
  | some values =>
    match Binding.bind t values with
    | .ok bound => (Statement.parse bound).mapError .parse
    | .error e => .error (.binding e)

def run (dir : Directory) (s : Statement) : Except DatabaseError Outcome :=
  match Store.load dir s.table with
  | .ok rows =>
    (Query.run (some (Store.load dir)) s rows).mapError
      QueryError.toDatabaseError
  | .error e => .error (.store e)

/-- Writes what a statement on a table has left to write, and the directory
after it. -/
def commit (dir : Directory) (table : Text) (o : Outcome) :
    Except DatabaseError Unit × Directory :=
  match o.contents with
  | none => (.ok (), dir)
  | some rows =>
    let (result, after) := Store.replace dir table rows
    (result.mapError .store, after)

/-- Executes a statement: what it answers, and the directory after it. -/
def execute (dir : Directory) (t : Text) (values : Option (List Value)) :
    Except DatabaseError Answer × Directory :=
  match read t values with
  | .error e => (.error e, dir)
  | .ok s =>
    match run dir s with
    | .error e => (.error e, dir)
    | .ok o =>
      let (result, after) := commit dir s.table o
      (result.map fun _ => o.answer, after)

end Database

end RowSql
