import Mathlib.Data.List.Nodup
import RowSql.Proofs.Shell.Path
import RowSql.Proofs.Shell.Session

/-!
# What is logged, and how often

The log outlives a run, and each run configures it again. Two facts together
keep its files free of repetition: a log never holds a path twice, however often
and by however many spellings a file is given, and a session has one record of
an error for each of its statements that fails. Both are shown for a single step
first, a configuration and a line, and then for a series of them. The file of a
log is taken to be apart from the files of the tables.
-/

namespace RowSql.Shell

/-- How a log is configured: with a level and perhaps a file, given in some
current directory. -/
structure Configuration where
  current : Text
  level : Level
  file : Option Text

/-- The absolute path of the file that is given. -/
def Configuration.path? (c : Configuration) : Option Text :=
  c.file.map (absolutePath c.current)

/-- A log after it has been configured several times. -/
def Log.configureAll (log : Log) (cs : List Configuration) : Log :=
  cs.foldl (fun log c => log.configure c.level c.path?) log

/-- The statements that fail, of a series that is executed one after the other:
those that cannot be executed, and those whose answer the display refuses. -/
def failed (display : Display) (dir : Directory) : List Text → List Text
  | [] => []
  | t :: ts =>
    (match (Database.execute dir t none).1 with
      | .ok answer => if display.Takes (view answer) then [] else [t]
      | .error _ => [t]) ++ failed display (Database.execute dir t none).2 ts

/-- The record of a statement that fails. -/
def failure (t : Text) : LogRecord :=
  ⟨.error, "Statement failed: ".toText ++ t⟩

def errors (records : List LogRecord) : List LogRecord :=
  records.filter fun r => decide (r.level = .error)

/-- Runs in one process, each with its arguments and its input. Each goes on
with the log and the directory that the run before it has left. -/
def runs (display : Display) (current : Text) (log : Log) (dir : Directory) :
    List (List Text × String) → List Run
  | [] => []
  | (arguments, input) :: starts =>
    let now := run display arguments current log dir input.toText
    now :: runs display current now.log now.directory starts

/-- What a run adds to a file: each record once for each time that the log has
the file. -/
def Run.addedTo (r : Run) (path : Text) : List LogRecord :=
  r.records.flatMap fun record => List.replicate (r.log.files.count path) record

/-- Arguments that start the shell on a directory and have it log errors to a
file. -/
structure LogsTo (current directory path : Text) (arguments : List Text)
    (settings : Settings) :
    Prop where
  starts : Request.ofArguments arguments = .start settings
  directory : settings.directory = directory
  path : settings.logFile.map (absolutePath current) = some path
  level : settings.level ≠ .critical

/-! ## Configurations

A configuration adds a file unless it is there. So the files are distinct after
any number of configurations, and are those that were asked for. -/

variable {log : Log} {level : Level} {path : Text} {file : Option Text}
  {cs : List Configuration}

theorem mem_files_configure :
    path ∈ (log.configure level file).files ↔
      path ∈ log.files ∨ file = some path := by
  cases file with
  | none => simp [Log.configure]
  | some given =>
      simp only [Log.configure, Option.some.injEq]
      split
      · next hmem =>
          refine ⟨.inl, ?_⟩
          rintro (h | rfl)
          · exact h
          · exact hmem
      · rw [List.mem_append, List.mem_singleton, eq_comm]

theorem nodup_files_configure (h : log.files.Nodup) :
    (log.configure level file).files.Nodup := by
  cases file with
  | none => exact h
  | some given =>
      simp only [Log.configure]
      split
      · exact h
      · next hnew =>
          exact List.nodup_append_comm.1 (List.nodup_cons.2 ⟨hnew, h⟩)

theorem mem_files_configureAll :
    path ∈ (log.configureAll cs).files ↔
      path ∈ log.files ∨ ∃ c ∈ cs, c.path? = some path := by
  induction cs generalizing log with
  | nil => simp [Log.configureAll]
  | cons c cs ih =>
      show path ∈ ((log.configure c.level c.path?).configureAll cs).files ↔ _
      rw [ih, mem_files_configure, or_assoc, List.exists_mem_cons_iff]

theorem nodup_files_configureAll (h : log.files.Nodup) :
    (log.configureAll cs).files.Nodup := by
  induction cs generalizing log with
  | nil => exact h
  | cons c cs ih => exact ih (nodup_files_configure h)

/-! ## Errors of a session

Of the records of a session only the failures are errors, and they come in the
order of the lines. -/

variable {display : Display} {dir : Directory} {current directory : Text}
  {ts us arguments : List Text}

theorem failed_append :
    failed display dir (ts ++ us) =
      failed display dir ts ++ failed display (after dir ts) us := by
  induction ts generalizing dir with
  | nil => rfl
  | cons t ts ih =>
      rw [List.cons_append, failed, failed, ih, List.append_assoc]
      rfl

theorem errors_append (rs ss : List LogRecord) :
    errors (rs ++ ss) = errors rs ++ errors ss :=
  List.filter_append rs ss

theorem errors_recordsOf (path : Text) (dir : Directory) (t : Text) :
    errors (recordsOf display path dir t) =
      (failed display dir [t]).map failure := by
  have hsteps : errors ((Journal.ofExecution dir t none).map fun event =>
      ⟨.debug, event.message path⟩) = [] := by
    rw [errors, List.filter_eq_nil_iff, List.forall_mem_map]
    exact fun event _ => Bool.false_ne_true
  rw [recordsOf, errors_append, hsteps, failed, failed]
  cases hresult : (Database.execute dir t none).1 with
  | error e => rfl
  | ok answer =>
      cases hrefusal : display.refusal? (view answer) with
      | none =>
          have htaken : display.Takes (view answer) := hrefusal
          simp only [shownText_of_execute hresult, hrefusal, if_pos htaken]
          rfl
      | some message =>
          have hrefused : ¬ display.Takes (view answer) := by
            rw [Display.Takes, hrefusal]
            exact nofun
          simp only [shownText_of_execute hresult, hrefusal, if_neg hrefused]
          rfl

theorem errors_recordsOfAll (path : Text) (dir : Directory) (ts : List Text) :
    errors (recordsOfAll display path dir ts) =
      (failed display dir ts).map failure := by
  induction ts generalizing dir with
  | nil => rfl
  | cons t ts ih =>
      rw [recordsOfAll, errors_append, errors_recordsOf, ih, ← List.map_append]
      exact congrArg (List.map failure) failed_append.symm

/-! ## Errors of a run

A run writes its records to every file of the log, unless its level keeps them
out. One file for each path means that each failure comes into the file once,
however often the shell was started before. -/

theorem Level.rank_le_error (h : level ≠ .critical) :
    level.rank ≤ Level.error.rank := by
  cases level with
  | critical => exact absurd rfl h
  | _ => decide

theorem errors_kept (h : log.level ≠ .critical) (records : List LogRecord) :
    errors (log.kept records) = errors records := by
  rw [errors, Log.kept, List.filter_filter]
  refine List.filter_congr fun r _ => ?_
  by_cases hr : r.level = .error
  · rw [hr, decide_eq_true (Level.rank_le_error h)]
    rfl
  · rw [decide_eq_false hr, Bool.false_and]

theorem addedTo_eq_records {r : Run} (hnodup : r.log.files.Nodup)
    (hmem : path ∈ r.log.files) :
    r.addedTo path = r.records := by
  rw [Run.addedTo, List.count_eq_one_of_mem hnodup hmem]
  exact List.flatMap_singleton' r.records

variable {settings : Settings}

/-- A run that logs errors to a file adds one record for each statement that
fails, and leaves a log that has no file twice. -/
theorem errors_run (h : LogsTo current directory path arguments settings)
    (hnodup : log.files.Nodup) (hnames : display.TakesTables dir)
    (input : String) :
    (run display arguments current log dir input.toText).log.files.Nodup ∧
      (run display arguments current log dir input.toText).directory =
        after dir (statements (answered (inputLines input.toText))) ∧
      errors
          ((run display arguments current log dir input.toText).addedTo path) =
        (failed display dir
          (statements (answered (inputLines input.toText)))).map failure := by
  have hrun : run display arguments current log dir input.toText =
      runWith display settings current log dir input.toText := by
    rw [run, h.starts]
  have hsession :=
    session_eq settings.directory (ofChars_inputLines input) hnames
  -- whether an earlier run has added the file or this one does, it is there
  -- once
  have hafter :
      (runWith display settings current log dir input.toText).log.files.Nodup :=
      nodup_files_configure hnodup
  have hmem :
      path ∈ (runWith display settings current log dir
        input.toText).log.files :=
      mem_files_configure.2 (.inr h.path)
  have hlevel :
      (runWith display settings current log dir input.toText).log.level =
        settings.level := by
    show (log.configure settings.level
      (settings.logFile.map (absolutePath current))).level = _
    rw [h.path]
    rfl
  rw [hrun, addedTo_eq_records hafter hmem]
  refine ⟨hafter, ?_, ?_⟩
  · dsimp only [runWith]
    rw [hsession]
  · have hkept := errors_kept (hlevel ▸ h.level)
      (session display settings.directory dir (inputLines input.toText)).records
    refine hkept.trans ?_
    rw [hsession]
    exact errors_recordsOfAll _ _ _

variable {starts : List (List Text × String)}

theorem errors_runs
    (hstarts : ∀ s ∈ starts, ∃ settings,
      LogsTo current directory path s.1 settings)
    (hnodup : log.files.Nodup) (hnames : display.TakesTables dir) :
    errors ((runs display current log dir starts).flatMap (·.addedTo path)) =
      (failed display dir (starts.flatMap fun s =>
        statements (answered (inputLines s.2.toText)))).map failure := by
  induction starts generalizing log dir with
  | nil => rfl
  | cons s starts ih =>
      obtain ⟨arguments, input⟩ := s
      obtain ⟨⟨settings, hsettings⟩, hstarts⟩ := List.forall_mem_cons.1 hstarts
      obtain ⟨hnext, hdirectory, herrors⟩ :=
        errors_run hsettings hnodup hnames input
      have hlater := ih hstarts hnext (hdirectory ▸ hnames.after _)
      rw [runs, List.flatMap_cons, errors_append, herrors, hlater, hdirectory,
        List.flatMap_cons, failed_append, List.map_append]

/-- Running the shell on several inputs with the same arguments makes the
records of these runs. -/
theorem records_runAll (arguments : List Text) (current : Text) (log : Log)
    (dir : Directory) (inputs : List String) :
    (runAll display arguments current log dir
      (inputs.map String.toText)).records =
      (runs display current log dir (inputs.map (arguments, ·))).flatMap
          Run.records := by
  induction inputs generalizing log dir with
  | nil => rfl
  | cons input inputs ih =>
      cases inputs with
      | nil => simp [runAll, runs]
      | cons next inputs =>
          rw [List.map_cons, List.map_cons, runAll]
          · exact congrArg (_ ++ ·) (ih _ _)
          · exact nofun

/-- Two starts that spell one log file differently. -/
def twoStarts : List (List Text × String) :=
  [(["data".toText, "--log-file".toText, "run.log".toText],
      "DROP t\nSELECT * FROM t"),
    (["data".toText, "--log-level=debug".toText, "--log-file=./run.log".toText],
      "SELECT a t\nSELECT a FROM u\n.exit\nDROP u")]

/-- Two configurations before them, with the same file. -/
def earlier : List Configuration :=
  [⟨"/home".toText, .debug, some "run.log".toText⟩,
    ⟨"/home/x".toText, .error, some "../run.log".toText⟩]

end RowSql.Shell
