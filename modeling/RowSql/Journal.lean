import RowSql.Database

/-!
# The journal

A statement leaves a record of what it did, step by step, up to the step that
failed. Whether anybody keeps the record makes no difference to the statement.
-/

namespace RowSql

/-- A step of a statement. -/
inductive Event where
  | parsed (kind : Statement.Kind) (table : Text)
  | noFile (table : Text)
  | loaded (rows : Nat) (table : Text)
  | selected (rows : Nat) (table : Text)
  | inserted (fields : Nat) (table : Text)
  | updated (rows : Nat) (table : Text)
  | deleted (rows : Nat) (table : Text)
  | saved (rows : Nat) (table : Text)
  | finished (kind : Statement.Kind) (rows : Nat) (table : Text)
deriving DecidableEq

def Store.path (directory table : Text) : Text :=
  directory ++ (if directory.getLast? = some (.char '/') then
    [] else "/".toText) ++ fileName table

/-- The name under which the journal knows a kind of statement. -/
def Statement.Kind.label : Kind → Text
  | select => "SelectStmt".toText
  | insert => "InsertStmt".toText
  | update => "UpdateStmt".toText
  | delete => "DeleteStmt".toText

def Event.message (directory : Text) : Event → Text
  | parsed kind table =>
    "Parsed ".toText ++ kind.word ++ " statement on table ".toText ++ table
  | noFile table =>
    "Table ".toText ++ table ++ " has no file yet; treating as empty".toText
  | loaded rows table =>
    "Loaded ".toText ++ Text.ofNat rows ++ " row(s) from ".toText ++
      Store.path directory table
  | selected rows table =>
    "SELECT from ".toText ++ table ++ " returned ".toText ++ Text.ofNat rows ++
      " row(s)".toText
  | inserted fields table =>
    "INSERT into ".toText ++ table ++ " with ".toText ++ Text.ofNat fields
      ++ " field(s)".toText
  | updated rows table =>
    "UPDATE on ".toText ++ table ++ " touched ".toText ++ Text.ofNat rows ++
      " row(s)".toText
  | deleted rows table =>
    "DELETE on ".toText ++ table ++ " removed ".toText ++ Text.ofNat rows ++
      " row(s)".toText
  | saved rows table =>
    "Saved ".toText ++ Text.ofNat rows ++ " row(s) to ".toText ++
      Store.path directory table
  | finished kind rows table =>
    kind.label ++ " on ".toText ++ table ++ " -> ".toText ++ Text.ofNat rows ++
      " row(s)".toText

namespace Journal

def ofLoad (dir : Directory) (table : Text) : List Event :=
  match dir.read? (Store.fileName table), Store.load dir table with
  | none, _ => [.noFile table]
  | some _, .ok rows => [.loaded rows.length table]
  | some _, .error _ => []

/-- The tables that a statement looks up beside its own. -/
def lookedUp (dir : Directory) (s : Statement) (rows : List Record) :
    List Text :=
  match s with
  | .select s =>
    Query.lookedUp (Store.load dir) s.joins (Query.qualifyRows s.table rows)
  | _ => []

/-- The step that an answer is the result of. -/
def ofAnswer (s : Statement) : Answer → Event
  | .rows rows => .selected rows.length s.table
  | .record r => .inserted r.fields.length s.table
  | .count n =>
    match s with
    | .delete _ => .deleted n s.table
    | _ => .updated n s.table

def ofOutcome (dir : Directory) (s : Statement) (o : Outcome) : List Event :=
  match o.contents, (Database.commit dir s.table o).1 with
  | _, .error _ => []
  | none, .ok _ => [.finished s.kind o.answer.size s.table]
  | some rows, .ok _ =>
    [.saved rows.length s.table, .finished s.kind o.answer.size s.table]

def ofRun (dir : Directory) (s : Statement) : List Event :=
  match Store.load dir s.table with
  | .error _ => []
  | .ok rows =>
    (lookedUp dir s rows).flatMap (ofLoad dir) ++
      match Database.run dir s with
      | .error _ => []
      | .ok o => ofAnswer s o.answer :: ofOutcome dir s o

def ofExecution (dir : Directory) (t : Text) (values : Option (List Value)) :
    List Event :=
  match Database.read t values with
  | .error _ => []
  | .ok s => .parsed s.kind s.table :: ofLoad dir s.table ++ ofRun dir s

end Journal

end RowSql
