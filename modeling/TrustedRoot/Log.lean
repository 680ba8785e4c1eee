/-!
Messages for the log, and how loud a program is.
-/

namespace TrustedRoot

/-- The severity of a message, from the gravest down. -/
inductive Severity
  | error
  | warn
  | info
  | debug
  | trace
deriving DecidableEq, Repr

/-- The place of a severity in the order of gravity, from one. -/
def Severity.rank : Severity → Nat
  | .error => 1
  | .warn => 2
  | .info => 3
  | .debug => 4
  | .trace => 5

/-- A message of the library for the log. -/
structure Record where
  severity : Severity
  text : String
deriving DecidableEq, Repr

/-- How much a program says on the error channel. -/
inductive Verbosity
  | quiet
  | normal
  | verbose
deriving DecidableEq, Repr

namespace Verbosity

/-- The place of a verbosity in their order. -/
def rank : Verbosity → Nat
  | .quiet => 0
  | .normal => 1
  | .verbose => 2

/-- The name of a verbosity. -/
def name : Verbosity → String
  | .quiet => "quiet"
  | .normal => "normal"
  | .verbose => "verbose"

/-- The verbosity with the given name, in letters of either case. No letter outside ASCII has one of
these letters as its lower case, so folding ASCII is enough. -/
def ofName? (name : String) : Option Verbosity :=
  [quiet, normal, verbose].find? fun v => v.name.toList = name.toList.map Char.toLower

/-- The message about a name that no verbosity has. -/
def unknownName (name : String) : String := s!"invalid log level: {name}"

/-- The greatest rank of a severity that is let through; zero lets nothing through. -/
def threshold : Verbosity → Nat
  | .quiet => 0
  | .normal => Severity.warn.rank
  | .verbose => Severity.trace.rank

/-- Whether records of a severity are let through. -/
def admits (v : Verbosity) (severity : Severity) : Bool := severity.rank ≤ v.threshold

/-- The lines that a message of a severity puts on the error channel. Errors and warnings show
unless the program is quiet, everything else only when it is verbose; a trace shows as a debug
message. -/
def say (v : Verbosity) (severity : Severity) (text : String) : String :=
  match severity with
  | .error => if normal.rank ≤ v.rank then s!"ERROR: {text}\n" else ""
  | .warn => if normal.rank ≤ v.rank then s!"WARN: {text}\n" else ""
  | .info => if verbose.rank ≤ v.rank then s!"INFO: {text}\n" else ""
  | .debug | .trace => if verbose.rank ≤ v.rank then s!"DEBUG: {text}\n" else ""

/-- The lines that a record puts on the error channel: nothing unless its severity is let through.
-/
def render (v : Verbosity) (record : Record) : String :=
  if v.admits record.severity then v.say record.severity record.text else ""

/-- The variable that sets the verbosity when no flag does. -/
def settingVariable : String := "ROOTJOIN_LOG_MODE"

/-- The verbosity of a run: a flag wins over the variable, `verbose` over `quiet`; a value of the
variable that names no verbosity is passed over. -/
def choose (verbose quiet : Bool) (setting : Option String) : Verbosity :=
  if verbose then .verbose
  else if quiet then .quiet
  else (setting >>= ofName?).getD .normal

end Verbosity

/-- How a run speaks on the error channel. Quiet may be asked for beside a greater verbosity; it
then holds back remarks only. -/
structure Tone where
  quiet : Bool
  verbosity : Verbosity
deriving DecidableEq, Repr

/-- A remark as it is put out. -/
def Tone.remark (tone : Tone) (text : String) : String := if tone.quiet then "" else text

end TrustedRoot
