import RowSql.Journal
import RowSql.Shell.Arguments
import RowSql.Shell.Display
import RowSql.View.Table

/-!
# A session

The shell reads lines, shows a prompt before each, and answers each from the
directory as it is at that moment. A line that begins with no statement and is
no command is put to the database like any other. A statement has failed when it
cannot be executed or when its answer cannot be shown, and the message of either
is shown instead. A session ends with an exit command or with the input, or with
something other than an answer that the display refuses.
-/

namespace RowSql.Shell

/-- What a line asks for. -/
inductive Command where
  | nothing
  | exit
  | tables
  | help
  | statement (t : Text)
deriving DecidableEq

def Command.ofLine (line : Text) : Command :=
  let t := Text.trim line
  if t = [] then .nothing
  else if t = ".exit".toText ∨ t = ".quit".toText then .exit
  else if t = ".tables".toText then .tables
  else if t = ".help".toText then .help
  else .statement t

/-- What is shown first. -/
def banner : Text :=
  "microsql REPL. Commands: .tables, .help, .exit".toText

def prompt : Text :=
  "microsql> ".toText

def helpLines : List Text :=
  ["Commands: .tables, .help, .exit".toText,
   "Statements: SELECT, INSERT, UPDATE, DELETE".toText]

/-- Lines as they are shown, each with a line feed behind it. -/
def showLines (lines : List Text) : Text :=
  lines.flatMap fun line => line ++ "\n".toText

/-- The names of the tables, or a note that there are none. -/
def tableLines (dir : Directory) : List Text :=
  match Store.tables dir with
  | [] => ["(no tables)".toText]
  | names => names

/-- The text of an answer. -/
def answerText : Answer → Except Overflow Text
  | .rows rows => View.render rows
  | .record r => View.render [r]
  | .count n => .ok (Text.ofNat n)

/-- What is shown for the outcome of a statement: the text of its answer, or the
message of whatever kept it from being shown. -/
def shownText (display : Display) :
    Except DatabaseError Answer → Except Text Text
  | .error e => .error e.message
  | .ok answer =>
    match answerText answer with
    | .error e => .error e.message
    | .ok t =>
      match display.refusal? t with
      | none => .ok t
      | some message => .error message

/-- The records of a statement: one for each of its steps, and one for its
failure. -/
def recordsOf (display : Display) (directory : Text) (dir : Directory)
    (t : Text) :
    List LogRecord :=
  (Journal.ofExecution dir t none).map
    (fun event => ⟨.debug, event.message directory⟩) ++
    match shownText display (Database.execute dir t none).1 with
    | .ok _ => []
    | .error _ => [⟨.error, "Statement failed: ".toText ++ t⟩]

/-- What a line brings about: what is shown, the directory after it, what there
is to log, and whether something was refused that ends the session. -/
structure Effect where
  shown : Text
  directory : Directory
  records : List LogRecord
  broken : Bool

/-- Shows lines up to the first that the display refuses. -/
def Display.effect (display : Display) (lines : List Text) (dir : Directory)
    (records : List LogRecord) : Effect where
  shown := showLines (lines.takeWhile fun line => decide (display.Takes line))
  directory := dir
  records := records
  broken := !lines.all fun line => decide (display.Takes line)

/-- What a command other than the one to exit brings about, where `path` is the
path of the directory. -/
def effect (display : Display) (path : Text) (dir : Directory) :
    Command → Effect
  | .nothing => ⟨[], dir, [], false⟩
  -- a session ends before this is asked
  | .exit => ⟨[], dir, [], false⟩
  | .tables => display.effect (tableLines dir) dir []
  | .help => display.effect helpLines dir []
  | .statement t =>
    let (result, after) := Database.execute dir t none
    let records := recordsOf display path dir t
    match shownText display result with
    | .ok t => ⟨showLines [t], after, records, false⟩
    | .error message =>
      display.effect ["error: ".toText ++ message] after records

/-- Goes through the lines up to an exit command or the end. -/
def session (display : Display) (path : Text) (dir : Directory) :
    List Text → Effect
  | [] => ⟨prompt, dir, [], false⟩
  | line :: lines =>
    match Command.ofLine line with
    | .exit => ⟨prompt, dir, [], false⟩
    | command =>
      let now := effect display path dir command
      if now.broken then { now with shown := prompt ++ now.shown }
      else
        let later := session display path now.directory lines
        ⟨prompt ++ now.shown ++ later.shown, later.directory,
          now.records ++ later.records, later.broken⟩

/-- The lines of an input. What stands behind the last line feed is a line
unless it is empty. -/
def inputLines (input : Text) : List Text :=
  let lines := input.splitOn (.char '\n')
  if lines.getLast? = some [] then lines.dropLast else lines

/-- What running the shell once brings about. -/
structure Run where
  exitCode : Nat
  shown : Text
  directory : Directory
  /-- The log as it is configured afterwards. -/
  log : Log
  /-- The records that go to each of the log's files. -/
  records : List LogRecord

/-- Runs the shell once with settings. -/
def runWith (display : Display) (settings : Settings) (current : Text)
    (log : Log) (dir : Directory) (input : Text) : Run :=
  let log :=
    log.configure settings.level (settings.logFile.map (absolutePath current))
  let ended := session display settings.directory dir (inputLines input)
  ⟨if ended.broken then 1 else 0, showLines [banner] ++ ended.shown,
    ended.directory, log, log.kept ended.records⟩

/-- Runs the shell once: what it shows and does with arguments and an input, in
a current directory, on the tables of the directory that the arguments name. -/
def run (display : Display) (arguments : List Text) (current : Text) (log : Log)
    (dir : Directory) (input : Text) : Run :=
  match Request.ofArguments arguments with
  | .start settings => runWith display settings current log dir input
  | .help => ⟨0, [], dir, log, []⟩
  | .refused => ⟨2, [], dir, log, []⟩

/-- What running the shell several times brings about, one input after the
other, in the same process. -/
def runAll (display : Display) (arguments : List Text) (current : Text)
    (log : Log) (dir : Directory) : List Text → Run
  | [] => ⟨0, [], dir, log, []⟩
  | [input] => run display arguments current log dir input
  | input :: inputs =>
    let now := run display arguments current log dir input
    let later := runAll display arguments current now.log now.directory inputs
    ⟨later.exitCode, now.shown ++ later.shown, later.directory, later.log,
      now.records ++ later.records⟩

end RowSql.Shell
