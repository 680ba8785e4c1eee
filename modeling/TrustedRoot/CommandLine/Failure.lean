import TrustedRoot.Error

/-!
How a command fails, and the exit code that tells so.
-/

namespace TrustedRoot.CommandLine

/-- Why a command failed. -/
inductive Failure
  /-- The library reported an error. -/
  | library (error : Error)
  /-- The arguments do not fit what is there. -/
  | invalidArguments (text : String)
  | io (error : IoError)
  /-- There is no valid configuration. -/
  | config (text : String)
  /-- What the command was to make sure of does not hold. -/
  | refuted (text : String)
deriving DecidableEq, Repr

namespace Failure

/-- The message of a failure. -/
def message : Failure → String
  | .library error => error.message
  | .invalidArguments text => s!"Invalid arguments: {text}"
  | .io error => s!"I/O error: {error.text}"
  | .config text => s!"Configuration error: {text}"
  | .refuted text => text

/-- The exit code of a failure. -/
def exitCode : Failure → Nat
  | .refuted _ => 1
  | .invalidArguments _ => 4
  | .io _ => 5
  | .config _ => 7
  | .library error =>
    match error with
    | .symlinkLoop .. => 1
    | .lookup .. | .io _ => 5
    | .invalidPath .. => 6
    | .validation .. | .configuration _ | .unknownRoot _ => 7

/-- The message of the error behind a failure, if there is one. -/
def source? : Failure → Option String
  | .library error => some error.message
  | .io error => some error.text
  | _ => none

end Failure
end TrustedRoot.CommandLine
