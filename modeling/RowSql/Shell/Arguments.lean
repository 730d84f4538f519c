import RowSql.Shell.Log
import RowSql.Text.DecimalDigit

/-!
# Arguments

The shell takes the directory of the tables, a log level and a log file. A long
option may be shortened as long as it stays unambiguous, and its value stands
behind an equals sign or in the next argument. What looks like a negative number
or holds a space is no option, and behind the separator `--` nothing is. A
separator behind an equals sign is no value either: it passes if a later value
of the same option takes its place.
-/

namespace RowSql.Shell

/-- What the shell is asked to do. -/
structure Settings where
  directory : Text
  level : Level
  logFile : Option Text
deriving DecidableEq

inductive Request where
  | start (settings : Settings)
  | help
  | refused
deriving DecidableEq

inductive Flag where
  | help
  | level
  | file
deriving DecidableEq, Repr

namespace Flag

def spelling : Flag → Text
  | help => "--help".toText
  | level => "--log-level".toText
  | file => "--log-file".toText

def all : List Flag := [help, level, file]

/-- The options of which a text is a beginning. -/
def beginningWith (t : Text) : List Flag :=
  all.filter fun f => t.isPrefixOf f.spelling

end Flag

/-- What an argument is. A call for help is unclear when a value is attached to
it. -/
inductive Argument where
  | plain (t : Text)
  | separator
  | help (clear : Bool)
  | option (f : Flag) (value : Option Text)
  | unknown

/-- An option with the value that is attached to it, if any. -/
def Argument.ofFlag (f : Flag) (value : Option Text) : Argument :=
  if f = .help then .help value.isNone else .option f value

/-- Splits an argument at its first equals sign. -/
def splitValue (t : Text) : Text × Option Text :=
  match Text.cutAt? '=' t with
  | some (name, value) => (name, some value)
  | none => (t, none)

/-- Whether a text is a minus sign and a number with or without a point. -/
def isNegativeNumber (t : Text) : Bool :=
  let allDigits (s : Text) : Bool :=
    !s.isEmpty && s.all fun c => (digit? c).isSome
  -- one line feed at the end does not count
  match if t.getLast? = some (.char '\n') then t.dropLast else t with
  | '-' :: s =>
    allDigits s ||
      match Text.cutAt? '.' s with
      | some (whole, fraction) =>
        (whole.isEmpty || allDigits whole) && allDigits fraction
      | none => false
  | _ => false

/-- What an argument is that is no option in full. -/
def classifyOther (t : Text) : Argument :=
  if isNegativeNumber t || t.contains ' ' then .plain t else .unknown

/-- What an argument is that begins with two minus signs; `none` if it could be
more than one option. -/
def classifyLong? (t : Text) : Option Argument :=
  let (name, value) := splitValue t
  match Flag.all.find? (·.spelling == name) with
  | some f => some (.ofFlag f value)
  | none =>
    match Flag.beginningWith name with
    | [] => some (classifyOther t)
    | [f] => some (.ofFlag f value)
    | _ => none

/-- Whether a call for help is clear with this attached to its letter: nothing,
or the same letter again, as often as you like and perhaps behind an equals
sign. -/
def isClearHelp (attached : Text) : Bool :=
  let letters :=
    if attached.head? = some (.char '=') then attached.tail else attached
  attached.isEmpty || !letters.isEmpty && letters.all (· == 'h')

/-- What an argument is; `none` if it could be more than one option. -/
def classify? : Text → Option Argument
  | '-' :: '-' :: s => classifyLong? ('-' :: '-' :: s)
  | '-' :: 'h' :: s => some (.help (isClearHelp s))
  | '-' :: c :: s => some (classifyOther ('-' :: c :: s))
  | t => some (.plain t)

/-- What stands before arguments of which none is an option. -/
def separator : Text := "--".toText

/-- What the arguments are, in order. -/
def classifyAll? : List Text → Option (List Argument)
  | [] => some []
  | t :: ts =>
    -- nothing behind a separator is an option
    if t = separator then some (.separator :: ts.map .plain)
    else
      match classify? t, classifyAll? ts with
      | some a, some as => some (a :: as)
      | _, _ => none

/-- What has been gathered from the arguments so far. -/
structure Gathered where
  directory : Option Text
  /-- The level; none if a separator stands in its place. -/
  level : Option Level
  /-- The log file, if there is one, or a separator in its place. -/
  logFile : Option Text
  /-- An argument has been left over. -/
  leftOver : Bool

namespace Gathered

def start : Gathered := ⟨none, some .warning, none, false⟩

/-- What the arguments amount to when they have all been gone through. -/
def finish (g : Gathered) : Request :=
  match g.directory, g.level, g.leftOver || g.logFile == some separator with
  | some directory, some level, false => .start ⟨directory, level, g.logFile⟩
  | _, _, _ => .refused

/-- The directory, or an argument too many. -/
def takePlain (g : Gathered) (t : Text) : Gathered :=
  match g.directory with
  | none => { g with directory := some t }
  | some _ => { g with leftOver := true }

/-- Takes the value of an option. -/
def take (g : Gathered) (f : Flag) (value : Text) : Option Gathered :=
  match f with
  | .help => none
  | .level =>
    if value = separator then some { g with level := none }
    else (Level.ofName? value).map fun level => { g with level := some level }
  | .file => some { g with logFile := some value }

end Gathered

/-- Goes through arguments, from left to right and no further than the first
that asks for help or is refused. The first plain argument is the directory, and
a separator may stand directly before or behind it. -/
def gather (g : Gathered) : List Argument → Request
  | [] => g.finish
  | .help clear :: _ => if clear then .help else .refused
  | .unknown :: as => gather { g with leftOver := true } as
  | .option f (some value) :: as =>
    match g.take f value with
    | some g => gather g as
    | none => .refused
  | .option f none :: .plain value :: as =>
    match g.take f value with
    | some g => gather g as
    | none => .refused
  -- no argument is left for the value, or it is none that could be one
  | .option _ none :: _ => .refused
  | .plain t :: .separator :: as => gather (g.takePlain t) as
  | .plain t :: as => gather (g.takePlain t) as
  | .separator :: .plain t :: as => gather (g.takePlain t) as
  | .separator :: as => gather { g with leftOver := true } as

def Request.ofArguments (arguments : List Text) : Request :=
  match classifyAll? arguments with
  | some as => gather .start as
  | none => .refused

end RowSql.Shell
