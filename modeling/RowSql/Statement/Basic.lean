import RowSql.Text.Basic

/-!
# Statements

The four kinds of statement. A filter is kept as its text; the values that an
INSERT or an UPDATE writes are texts too.
-/

namespace RowSql

/-- What happens to a left row that no row of the joined table matches: an inner
join drops it, a left join keeps it. -/
inductive JoinKind where
  | inner
  | left
deriving DecidableEq, Repr

/-- One joined table. The left column is a qualified column of the rows so far,
the right column one of the joined table. -/
structure Join where
  kind : JoinKind
  table : Text
  leftColumn : Text
  rightColumn : Text
deriving DecidableEq

inductive Direction where
  | ascending
  | descending
deriving DecidableEq, Repr

/-- Rows are joined, filtered, ordered, limited and cut down to columns, in this
order. The one column `*` stands for all columns, and a negative limit leaves
out that many rows at the end. -/
structure Select where
  table : Text
  columns : List Text
  filter : Option Text
  order : Option (Text × Direction)
  limit : Option Int
  joins : List Join
deriving DecidableEq

/-- Adds one record; values beyond the columns, or columns beyond the values,
are left out. -/
structure Insert where
  table : Text
  columns : List Text
  values : List Text
deriving DecidableEq

/-- Sets fields in the rows that satisfy the filter, or in all of them. -/
structure Update where
  table : Text
  assignments : List (Text × Text)
  filter : Option Text
deriving DecidableEq

/-- Removes the rows that satisfy the filter, or all of them. -/
structure Delete where
  table : Text
  filter : Option Text
deriving DecidableEq

inductive Statement where
  | select (s : Select)
  | insert (s : Insert)
  | update (s : Update)
  | delete (s : Delete)
deriving DecidableEq

namespace Statement

inductive Kind where
  | select
  | insert
  | update
  | delete
deriving DecidableEq, Repr

/-- The word with which a statement begins. -/
def Kind.word : Kind → Text
  | select => "SELECT".toText
  | insert => "INSERT".toText
  | update => "UPDATE".toText
  | delete => "DELETE".toText

def Kind.ofWord? (word : Text) : Option Kind :=
  [select, insert, update, delete].find? (·.word == word)

def kind : Statement → Kind
  | .select _ => .select
  | .insert _ => .insert
  | .update _ => .update
  | .delete _ => .delete

def table : Statement → Text
  | .select s => s.table
  | .insert s => s.table
  | .update s => s.table
  | .delete s => s.table

/-- The tables that are joined to it, in order. -/
def joinedTables : Statement → List Text
  | .select s => s.joins.map Join.table
  | _ => []

end Statement

end RowSql
