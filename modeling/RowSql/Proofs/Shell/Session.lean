import RowSql.Proofs.Database.Messages
import RowSql.Proofs.Database.Unaffected
import RowSql.Proofs.Query.Values
import RowSql.Proofs.Text.Items
import RowSql.Shell.Session

/-!
# A session as a series of statements

A session keeps nothing but the directory. So it can be told from its lines
alone: which of them are answered, which of these are statements, and what has
become of the directory by executing those before a line. The answer to a line
depends on the line and on that directory, and whether a statement fails makes
no difference to what comes after it.

An answer goes to a display, which may refuse it. A statement whose answer is
refused has failed like one that cannot be executed, and the message of a
failure is of characters and always taken. The names of tables are shown too. A
display that takes those that there are at the start takes all that come later,
which are words.
-/

namespace RowSql.Shell

/-! ## What a session is about

A transcript is a function of the directory and the lines: which statements are
executed, what is shown for each line and what is recorded. The loop of the
session does not occur in it. -/

/-- The lines of an input: a line feed stands behind each, but may be missing
behind the last unless that is empty. -/
structure AreLines (input : Text) (lines : List Text) : Prop where
  unbroken : ∀ line ∈ lines, .char '\n' ∉ line
  whole : showLines lines = input ∨
    showLines lines = input ++ "\n".toText ∧ lines.getLast? ≠ some []

/-- The trimmed lines that are answered: those before the first exit command. -/
def answered (lines : List Text) : List Text :=
  (lines.map Text.trim).takeWhile fun t =>
    decide (t ≠ ".exit".toText ∧ t ≠ ".quit".toText)

/-- The statements among trimmed lines: all that are not empty and no
command. -/
def statements (ts : List Text) : List Text :=
  ts.filter fun t => decide (t ≠ [] ∧ t ≠ ".tables".toText ∧ t ≠ ".help".toText)

/-- The directory after statements, executed one after the other, whether they
fail or not. -/
def after (dir : Directory) (ts : List Text) : Directory :=
  ts.foldl (fun dir t => (Database.execute dir t none).2) dir

/-- The text of an answer: a table of the rows or of the new row, or the number
of rows. -/
def view : Answer → Text
  | .rows rows => View.table rows
  | .record r => View.table [r]
  | .count n => Text.ofNat n

/-- The answer to a trimmed line. -/
def reply (display : Display) (dir : Directory) (t : Text) : Text :=
  if t = [] then []
  else if t = ".tables".toText then
    showLines (if Store.tables dir = [] then ["(no tables)".toText]
      else Store.tables dir)
  else if t = ".help".toText then
    showLines ["Commands: .tables, .help, .exit".toText,
      "Statements: SELECT, INSERT, UPDATE, DELETE".toText]
  else
    match (Database.execute dir t none).1 with
    | .error e => showLines ["error: ".toText ++ e.message]
    | .ok answer =>
      match display.refusal? (view answer) with
      | some message => showLines ["error: ".toText ++ message]
      | none => showLines [view answer]

/-- A prompt and an answer for each line, from the directory as the statements
before it have left it. -/
def transcript (display : Display) (dir : Directory) (ts : List Text) : Text :=
  (ts.mapIdx fun i t =>
    prompt ++ reply display (after dir (statements (ts.take i))) t).flatten

/-- The records of statements, each executed on what those before it have
left. -/
def recordsOfAll (display : Display) (path : Text) (dir : Directory) :
    List Text → List LogRecord
  | [] => []
  | t :: ts =>
    recordsOf display path dir t ++
      recordsOfAll display path (Database.execute dir t none).2 ts

/-! ## Series of statements

Each of these goes over the lines one by one with the directory that the lines
before have left, so two series are taken apart where they meet. -/

variable {dir : Directory} {t : Text} {ts us : List Text}

theorem after_append (dir : Directory) (ts us : List Text) :
    after dir (ts ++ us) = after (after dir ts) us :=
  List.foldl_append

theorem statements_append (ts us : List Text) :
    statements (ts ++ us) = statements ts ++ statements us :=
  List.filter_append ts us

theorem statements_cons (t : Text) (ts : List Text) :
    statements (t :: ts) = statements [t] ++ statements ts :=
  statements_append [t] ts

theorem transcript_cons (display : Display) (dir : Directory) (t : Text)
    (ts : List Text) :
    transcript display dir (t :: ts) =
      prompt ++ reply display dir t ++ transcript display
          (after dir (statements [t])) ts := by
  have hrest (i : Nat) : after dir (statements ((t :: ts).take (i + 1))) =
      after (after dir (statements [t])) (statements (ts.take i)) := by
    rw [List.take_succ_cons, statements_cons, after_append]
  rw [transcript, List.mapIdx_cons, List.flatten_cons]
  simp only [hrest]
  rfl

theorem recordsOfAll_append (display : Display) (path : Text) (dir : Directory)
    (ts us : List Text) :
    recordsOfAll display path dir (ts ++ us) =
      recordsOfAll display path dir ts ++ recordsOfAll display path
          (after dir ts) us := by
  induction ts generalizing dir with
  | nil => rfl
  | cons t ts ih =>
      rw [List.cons_append, recordsOfAll, recordsOfAll, ih, List.append_assoc]
      rfl

/-! ## What is shown

Every text of characters is taken, and so are the names of tables, if they were
when the session began. -/

variable {display : Display} {lines : List Text}

/-- The names of the tables can be shown. -/
def Display.TakesTables (display : Display) (dir : Directory) : Prop :=
  ∀ table ∈ Store.tables dir, display.Takes table

theorem Display.TakesTables.after (h : display.TakesTables dir)
    (ts : List Text) :
    display.TakesTables (after dir ts) := by
  induction ts generalizing dir with
  | nil => exact h
  | cons t ts ih =>
      refine ih fun table htable => ?_
      rcases Database.mem_tables_of_execute htable with hold | hname
      · exact h table hold
      · exact display.takes_ofChars table hname.ofChars

theorem Display.effect_of_takes (h : ∀ line ∈ lines, display.Takes line)
    (dir : Directory) (records : List LogRecord) :
    display.effect lines dir records = ⟨showLines lines, dir, records,
      false⟩ := by
  have hall : ∀ line ∈ lines, decide (display.Takes line) = true :=
    fun line hline => decide_eq_true (h line hline)
  rw [Display.effect, List.takeWhile_eq_self_iff.2 hall,
    List.all_eq_true.2 hall]
  rfl

/-- The integers in an answer have been read from files, so they can be
written. -/
theorem allShort_of_execute {values : Option (List Value)} {answer : Answer}
    (h : (Database.execute dir t values).1 = .ok answer) :
    View.AllShort answer.shown := by
  rcases Database.execute_cases dir t values with ⟨e, hfail⟩ |
    ⟨s, o, _, -, hrun, hdone, -⟩
  · rw [hfail] at h
    cases h
  · rw [hdone] at h
    cases h
    obtain ⟨rows, hload, hquery⟩ := Database.exists_of_run hrun
    have hshort (table : Text) (rows : List Record)
        (hrows : Store.load dir table = .ok rows) :
        ∀ r ∈ rows, r.Holds Value.Short :=
      fun r hr f hf => (Store.storable_of_load hrows r hr f hf).2.short
    exact Query.holds_of_run trivial (fun _ => trivial) hshort
      (hshort s.table rows hload) hquery

/-- What is shown for an answer is its text, unless that is refused. -/
theorem shownText_of_execute {answer : Answer}
    (h : (Database.execute dir t none).1 = .ok answer) :
    shownText display (.ok answer) =
      match display.refusal? (view answer) with
      | some message => .error message
      | none => .ok (view answer) := by
  have htext : answerText answer = .ok (view answer) := by
    have hshort := allShort_of_execute h
    cases answer with
    | rows | record => exact if_pos hshort
    | count n => rfl
  simp only [shownText, htext]
  cases display.refusal? (view answer) <;> rfl

/-- The message of a statement that fails is taken. -/
theorem ofChars_of_shownText_eq_error (ht : t.OfChars) {message : Text}
    (h : shownText display (Database.execute dir t none).1 = .error message) :
    message.OfChars := by
  rw [shownText.eq_def] at h
  split at h
  · next e he =>
      cases h
      exact Database.ofChars_of_execute_eq_error ht he
  · split at h
    · next e _ =>
        cases h
        exact e.ofChars_message
    · split at h
      · cases h
      · next hrefused =>
          cases h
          exact display.message_ofChars _ _ hrefused

/-! ## Commands

A line is an exit, another command, a blank line or a statement, and the loop
does for each what the transcript says. By induction on the lines a session is
its transcript, as far as the first exit. -/

variable {line path : Text}

theorem ofLine_eq_exit_iff :
    Command.ofLine line = .exit ↔
      Text.trim line = ".exit".toText ∨ Text.trim line = ".quit".toText := by
  rw [Command.ofLine]
  constructor
  · intro h
    split at h
    · cases h
    · split at h
      · assumption
      · split at h
        · cases h
        · split at h <;> cases h
  · intro h
    have hne : Text.trim line ≠ [] := by
      rcases h with h | h <;> rw [h] <;> decide
    rw [if_neg hne, if_pos h]

theorem statements_singleton_of_command
    (h : t = [] ∨ t = ".tables".toText ∨ t = ".help".toText) :
    statements [t] = [] := by
  rw [statements, List.filter_cons_of_neg, List.filter_nil]
  rw [decide_eq_true_eq]
  rintro ⟨hnil, htables, hhelp⟩
  exact h.elim hnil (Or.rec htables hhelp)

theorem statements_singleton (hnil : t ≠ []) (htables : t ≠ ".tables".toText)
    (hhelp : t ≠ ".help".toText) : statements [t] = [t] := by
  rw [statements, List.filter_cons_of_pos, List.filter_nil]
  exact decide_eq_true ⟨hnil, htables, hhelp⟩

theorem reply_statement (hnil : t ≠ []) (htables : t ≠ ".tables".toText)
    (hhelp : t ≠ ".help".toText) :
    reply display dir t =
      match shownText display (Database.execute dir t none).1 with
      | .ok shown => showLines [shown]
      | .error message => showLines ["error: ".toText ++ message] := by
  rw [reply, if_neg hnil, if_neg htables, if_neg hhelp]
  cases hresult : (Database.execute dir t none).1 with
  | error e => rfl
  | ok answer =>
      simp only [shownText_of_execute hresult]
      cases display.refusal? (view answer) <;> rfl

theorem effect_statement (display : Display) (path : Text) (dir : Directory)
    (t : Text) :
    effect display path dir (.statement t) =
      match shownText display (Database.execute dir t none).1 with
      | .ok shown =>
        ⟨showLines [shown], (Database.execute dir t none).2,
          recordsOf display path dir t, false⟩
      | .error message =>
        display.effect ["error: ".toText ++ message]
          (Database.execute dir t none).2
          (recordsOf display path dir t) :=
  rfl

theorem takes_toText (display : Display) (s : String) :
    display.Takes s.toText :=
  display.takes_ofChars _ (Text.ofChars_toText s)

theorem takes_helpLines (display : Display) :
    ∀ line ∈ helpLines, display.Takes line :=
  List.forall_mem_cons.2 ⟨takes_toText display _,
    List.forall_mem_singleton.2 (takes_toText display _)⟩

theorem tableLines_eq (dir : Directory) :
    tableLines dir =
      if Store.tables dir = [] then ["(no tables)".toText]
      else Store.tables dir := by
  rw [tableLines.eq_def]
  cases Store.tables dir <;> rfl

theorem takes_tableLines (hnames : display.TakesTables dir) :
    ∀ line ∈ tableLines dir, display.Takes line := by
  rw [tableLines_eq]
  split
  · exact List.forall_mem_singleton.2 (takes_toText display _)
  · exact hnames

/-- What a line of characters brings about, unless it is an exit command: its
answer is shown, and if it is a statement it is executed and leaves its
records. -/
theorem effect_ofLine (path : Text) (hline : line.OfChars)
    (hnames : display.TakesTables dir) (h : Command.ofLine line ≠ .exit) :
    effect display path dir (Command.ofLine line) =
      ⟨reply display dir (Text.trim line),
        after dir (statements [Text.trim line]),
        recordsOfAll display path dir (statements [Text.trim line]),
        false⟩ := by
  rw [Ne, ofLine_eq_exit_iff] at h
  simp only [Command.ofLine, if_neg h]
  by_cases hnil : Text.trim line = []
  · rw [if_pos hnil, reply, if_pos hnil,
      statements_singleton_of_command (.inl hnil)]
    rfl
  by_cases htables : Text.trim line = ".tables".toText
  · rw [if_neg hnil, if_pos htables, reply, if_neg hnil, if_pos htables,
      statements_singleton_of_command (.inr (.inl htables)), ← tableLines_eq]
    exact display.effect_of_takes (takes_tableLines hnames) dir []
  by_cases hhelp : Text.trim line = ".help".toText
  · rw [if_neg hnil, if_neg htables, if_pos hhelp, reply, if_neg hnil,
      if_neg htables, if_pos hhelp,
      statements_singleton_of_command (.inr (.inr hhelp))]
    exact display.effect_of_takes (takes_helpLines display) dir []
  · rw [if_neg hnil, if_neg htables, if_neg hhelp,
      reply_statement hnil htables hhelp,
      statements_singleton hnil htables hhelp, recordsOfAll, recordsOfAll,
      List.append_nil, effect_statement]
    cases hshown :
        shownText display (Database.execute dir (Text.trim line) none).1 with
    | ok shown => rfl
    | error message =>
        have hmessage := ofChars_of_shownText_eq_error
          (hline.of_subset (Text.trim_subset line)) hshown
        have hline : ("error: ".toText ++ message).OfChars :=
          Text.ofChars_append.2 ⟨Text.ofChars_toText _, hmessage⟩
        exact display.effect_of_takes
          (List.forall_mem_singleton.2 (display.takes_ofChars _ hline)) _ _

theorem session_cons_of_exit (h : Command.ofLine line = .exit) :
    session display path dir (line :: lines) = ⟨prompt, dir, [], false⟩ := by
  rw [session, h]

/-- A line that is answered is followed by the rest of the session. -/
theorem session_cons (h : Command.ofLine line ≠ .exit) {shown : Text}
    {next : Directory} {records : List LogRecord}
    (hnow : effect display path dir (Command.ofLine line) =
      ⟨shown, next, records, false⟩) :
    session display path dir (line :: lines) =
      let later := session display path next lines
      ⟨prompt ++ shown ++ later.shown, later.directory,
        records ++ later.records, later.broken⟩ := by
  rw [session]
  split
  · next hexit => exact absurd hexit h
  · rw [hnow]
    rfl

theorem answered_cons_of_exit (h : Command.ofLine line = .exit) :
    answered (line :: lines) = [] := by
  rw [answered, List.map_cons, List.takeWhile_cons_of_neg]
  rw [decide_eq_true_eq, ← not_or]
  exact not_not_intro (ofLine_eq_exit_iff.1 h)

theorem answered_cons (h : Command.ofLine line ≠ .exit) :
    answered (line :: lines) = Text.trim line :: answered lines := by
  rw [answered, List.map_cons, List.takeWhile_cons_of_pos]
  · rfl
  · exact decide_eq_true (not_or.1 (mt ofLine_eq_exit_iff.2 h))

/-- A session shows the transcript of the lines that are answered, and a last
prompt before the exit command or the end. -/
theorem session_eq (path : Text) (hlines : ∀ line ∈ lines, line.OfChars)
    (hnames : display.TakesTables dir) :
    session display path dir lines =
      ⟨transcript display dir (answered lines) ++ prompt,
        after dir (statements (answered lines)),
        recordsOfAll display path dir (statements (answered lines)),
        false⟩ := by
  induction lines generalizing dir with
  | nil => rfl
  | cons line lines ih =>
      obtain ⟨hline, hlines⟩ := List.forall_mem_cons.1 hlines
      by_cases h : Command.ofLine line = .exit
      · rw [session_cons_of_exit h, answered_cons_of_exit h]
        rfl
      · rw [session_cons h (effect_ofLine path hline hnames h),
          ih hlines (hnames.after (statements [Text.trim line])),
          answered_cons h, transcript_cons,
          statements_cons (Text.trim line) (answered lines), after_append,
          recordsOfAll_append]
        simp only [List.append_assoc]

/-! ## Lines

The input is cut at line feeds, and a last line that is empty is none. Putting
line feeds behind the lines gives the input back, or the input with the one that
was missing. -/

theorem showLines_concat (lines : List Text) (line : Text) :
    showLines (lines ++ [line]) = showLines lines ++ (line ++ "\n".toText) := by
  rw [showLines, List.flatMap_append, List.flatMap_singleton]
  rfl

theorem showLines_eq_join (h : lines ≠ []) :
    showLines lines = Text.join "\n".toText lines ++ "\n".toText := by
  induction lines with
  | nil => exact absurd rfl h
  | cons line lines ih =>
      cases lines with
      | nil => exact List.append_nil _
      | cons next lines =>
          have hrest := ih (List.cons_ne_nil next lines)
          rw [showLines] at hrest ⊢
          rw [List.flatMap_cons, hrest, Text.join]
          simp only [List.append_assoc]

/-- Pieces at line feeds are lines, if one more line feed is put behind the
last. -/
theorem showLines_splitOn (input : Text) :
    showLines (input.splitOn (.char '\n')) = input ++ "\n".toText := by
  have hjoin : Text.join "\n".toText (input.splitOn (.char '\n')) = input := by
    rw [Text.join_eq_intercalate]
    exact List.intercalate_splitOn (CodePoint.char '\n')
  rw [showLines_eq_join (List.splitOn_ne_nil _ input), hjoin]

theorem areLines_inputLines (input : Text) :
    AreLines input (inputLines input) := by
  have hunbroken : ∀ line ∈ input.splitOn (.char '\n'), .char '\n' ∉ line :=
    fun line hline => (Text.of_mem_splitOn hline).1
  rw [inputLines]
  split
  · next hlast =>
      obtain ⟨lines, hlines⟩ := List.getLast?_eq_some_iff.1 hlast
      have hwhole := showLines_splitOn input
      rw [hlines] at hunbroken hwhole ⊢
      rw [showLines_concat, List.nil_append] at hwhole
      rw [List.dropLast_concat]
      exact ⟨fun line hline => hunbroken line (List.mem_append_left _ hline),
        .inl (List.append_cancel_right hwhole)⟩
  · next hlast => exact ⟨hunbroken, .inr ⟨showLines_splitOn input, hlast⟩⟩

/-- The lines of a string are of characters. -/
theorem ofChars_inputLines (input : String) :
    ∀ line ∈ inputLines input.toText, line.OfChars := by
  have hpieces :
      ∀ line ∈ input.toText.splitOn (.char '\n'), Text.OfChars line :=
      fun line hline =>
        (Text.ofChars_toText input).of_subset (Text.of_mem_splitOn hline).2
  intro line hline
  rw [inputLines] at hline
  split at hline
  · exact hpieces line (List.dropLast_subset _ hline)
  · exact hpieces line hline

/-! ## A run

A run is a session between the banner and the code at the end. That code is
one when the listing of the tables could not be shown, and zero in every
other case. -/

/-- A table whose name the display refuses ends a session that asks for the
names. -/
theorem exitCode_of_refused {arguments : List Text} {settings : Settings}
    (current : Text) (log : Log)
    (h : Request.ofArguments arguments = .start settings) {table : Text}
    (htable : table ∈ Store.tables dir) (hrefused : ¬ display.Takes table) :
    (run display arguments current log dir ".tables".toText).exitCode = 1 := by
  have hlines : tableLines dir = Store.tables dir := by
    rw [tableLines_eq, if_neg (List.ne_nil_of_mem htable)]
  have hbroken : (display.effect (tableLines dir) dir []).broken = true := by
    rw [hlines, Display.effect, Bool.not_eq_true', List.all_eq_false]
    exact ⟨table, htable, fun hd => hrefused (of_decide_eq_true hd)⟩
  have hinput : inputLines ".tables".toText = [".tables".toText] := by decide
  have hcommand : Command.ofLine ".tables".toText = .tables := by decide
  rw [run, h]
  simp only [runWith, hinput, session, hcommand, effect, hbroken, if_true]

/-- A table with a surrogate that is half of no pair. -/
def halfPair : Directory :=
  Directory.empty.write "t.json".toText
    (Utf8.encode "[\x7b\"a\": \"\\ud800\"\x7d]".toText)

/-- The same file with one more row. -/
def halfPairAndRow : Directory :=
  Directory.empty.write "t.json".toText (Utf8.encode
    ("[\n  \x7b\n    \"a\": \"\\ud800\"\n  \x7d,".toText ++
      "\n  \x7b\n    \"a\": \"1\"\n  \x7d\n]".toText))

/-- Statements of which one fails and one has an answer that is refused, a blank
line and a command between them and the end, and a statement behind it. -/
def mixedInput : String :=
  "INSERT INTO t (a) VALUES (1)\n\nDROP t\nSELECT * FROM t\n" ++
    " .tables \n.quit\nDELETE FROM t"

end RowSql.Shell
