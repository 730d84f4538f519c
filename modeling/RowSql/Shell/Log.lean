import RowSql.Shell.Path
import RowSql.Text.Upper

/-!
# Logging

A log has a level and files. It keeps the records at or above its level and
writes each of them once to every file. A file is known by its absolute path, so
that starting the shell again with the same file adds no second one.
-/

namespace RowSql.Shell

/-- The weight of a record, lightest first. -/
inductive Level where
  | debug
  | info
  | warning
  | error
  | critical
deriving DecidableEq, Repr

namespace Level

def name : Level → Text
  | debug => "DEBUG".toText
  | info => "INFO".toText
  | warning => "WARNING".toText
  | error => "ERROR".toText
  | critical => "CRITICAL".toText

def rank : Level → Nat
  | debug => 0
  | info => 1
  | warning => 2
  | error => 3
  | critical => 4

/-- The level that a name in any letter case means. -/
def ofName? (t : Text) : Option Level :=
  [debug, info, warning, error, critical].find? (·.name == upper t)

end Level

/-- A line of a log. -/
structure LogRecord where
  level : Level
  message : Text
deriving DecidableEq

def LogRecord.toText (r : LogRecord) : Text :=
  r.level.name ++ .char ' ' :: r.message

/-- A level, and the absolute paths of the files. -/
structure Log where
  level : Level
  files : List Text
deriving DecidableEq

namespace Log

def start : Log := ⟨.warning, []⟩

/-- Sets the level, and adds a file unless it is there. -/
def configure (log : Log) (level : Level) (file : Option Text) : Log :=
  match file with
  | none => { log with level }
  | some path =>
    ⟨level, if path ∈ log.files then log.files else log.files ++ [path]⟩

def kept (log : Log) (records : List LogRecord) : List LogRecord :=
  records.filter fun r => decide (log.level.rank ≤ r.level.rank)

end Log

end RowSql.Shell
