import RowSql.Shell.Session

/-!
# The command line

Only what a session needs of the world is here: the files of a directory, the
lines of the standard input, and the places where output goes. The files are
read anew for every line and a changed one is put in place under a name of its
own first, so that what is on disk is always whole.
-/

namespace RowSql.Shell

/-- The files of a directory on disk. -/
def readDirectory (path : String) : IO Directory := do
  let mut dir := Directory.empty
  for entry in ← (← IO.FS.realPath path).readDir do
    if !(← entry.path.isDir) then
      dir :=
        dir.write entry.fileName.toText (← IO.FS.readBinFile entry.path).toList
  return dir

/-- Puts the files on disk that have changed. -/
def writeDirectory (path : String) (before after : Directory) : IO Unit := do
  for (name, bytes) in after.files do
    if before.read? name != some bytes then
      let target := path ++ "/" ++ name.toString
      let fresh := path ++ "/." ++ name.toString ++ ".tmp"
      IO.FS.writeBinFile fresh ⟨bytes.toArray⟩
      IO.FS.rename fresh target

/-- Adds records to the files of a log. -/
def appendRecords (log : Log) (records : List LogRecord) : IO Unit := do
  for file in log.files do
    IO.FS.withFile file.toString .append fun handle => do
      for record in records do
        handle.putStrLn record.toText.toString

/-- Answers lines until an exit command or the end of the input, and gives the
code with which to exit. -/
partial def answerLines (path : String) (log : Log)
    (input output : IO.FS.Stream) :
    IO UInt32 := do
  output.putStr prompt.toString
  output.flush
  let line ← input.getLine
  if line.isEmpty then return 0
  let command := Command.ofLine line.toText
  if command = .exit then return 0
  let dir ← readDirectory path
  let done := effect .utf8 path.toText dir command
  writeDirectory path dir done.directory
  appendRecords log (log.kept done.records)
  output.putStr done.shown.toString
  if done.broken then return 1
  answerLines path log input output

/-- The words for how the shell is called. -/
def usage : String :=
  "usage: rowsql [-h] [--log-level LEVEL] [--log-file LOG_FILE] data_dir"

/-- Runs the shell on the standard streams. -/
def start (settings : Settings) : IO UInt32 := do
  let path := settings.directory.toString
  let current := (← IO.currentDir).toString.toText
  let log :=
    Log.start.configure settings.level
      (settings.logFile.map (absolutePath current))
  appendRecords log []
  IO.FS.createDirAll path
  IO.println banner.toString
  answerLines path log (← IO.getStdin) (← IO.getStdout)

end RowSql.Shell

/-- Runs the shell with the arguments of the command line. -/
def main (arguments : List String) : IO UInt32 := do
  match RowSql.Shell.Request.ofArguments (arguments.map String.toText) with
  | .start settings => RowSql.Shell.start settings
  | .help => IO.println RowSql.Shell.usage; return 0
  | .refused => IO.eprintln RowSql.Shell.usage; return 2
