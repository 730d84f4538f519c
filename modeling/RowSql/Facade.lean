import RowSql.Database

/-!
# A database at work

A database is asked one thing after the other: to execute a statement, to answer
it as a query, or to name its tables. It keeps nothing but its directory, so it
makes no difference if it is closed and opened again in between.
-/

namespace RowSql.Database

/-- What a database can be asked. -/
inductive Request where
  | execute (t : Text) (values : Option (List Value))
  | query (t : Text) (values : Option (List Value))
  | tables
  | reopen

/-- What it answers. To a query these are the rows and how many the statement is
about, whatever statement it is. -/
inductive Reply where
  | answer (result : Except DatabaseError Answer)
  | rows (result : Except DatabaseError (List Record × Nat))
  | tables (names : List Text)
  | opened

def Reply.ofQuery (result : Except DatabaseError Answer) : Reply :=
  .rows (result.map fun a => (a.shown, a.size))

def answer (dir : Directory) : Request → Reply × Directory
  | .execute t values => ((execute dir t values).map .answer id)
  | .query t values => ((execute dir t values).map .ofQuery id)
  | .tables => (.tables (Store.tables dir), dir)
  | .reopen => (.opened, dir)

/-- The replies to requests, one after the other, and the directory after
them. -/
def answers (dir : Directory) : List Request → List Reply × Directory
  | [] => ([], dir)
  | q :: qs =>
    let (reply, dir) := answer dir q
    let (replies, dir) := answers dir qs
    (reply :: replies, dir)

end RowSql.Database
