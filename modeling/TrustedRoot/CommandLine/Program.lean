import TrustedRoot.CommandLine.Execution
import TrustedRoot.CommandLine.Grammar

/-!
A whole run of the program: from the words of the command line to what is written and the exit code.
-/

namespace TrustedRoot.CommandLine

/-- What a run leaves behind. -/
structure Report where
  exitCode : Nat
  /-- What goes to the output channel. -/
  output : String
  /-- What goes to the error channel. -/
  errors : String
deriving DecidableEq, Repr

/-- The report of a command line that is not run. Only what was asked for goes to the output
channel. -/
def Stop.report (wording : Wording) (words : List Bytes) (stop : Stop) : Report :=
  match stop with
  | .helpAsked | .versionAsked => ⟨0, wording.reply stop words, ""⟩
  | stop => ⟨2, "", wording.reply stop words⟩

/-- How a run speaks. -/
def Invocation.tone (invocation : Invocation) (environment : Environment) : Tone where
  quiet := invocation.quiet
  verbosity := .choose invocation.verbose invocation.quiet
    (environment.text? Verbosity.settingVariable)

/-- The report of a finished command. A failure shows as a last line unless quiet was asked for. -/
def report (tone : Tone) (result : Except Failure Unit) (notices : List Notice) : Report where
  exitCode := match result with
    | .ok () => 0
    | .error failure => failure.exitCode
  output := String.join (notices.map (·.outputText))
  errors := String.join (notices.map (·.errorText tone)) ++ match result with
    | .ok () => ""
    | .error failure => tone.remark s!"Error: {failure.message}\n"

section
variable {m : Type → Type} [Monad m]

/-- Runs a command line that was understood. -/
def Invocation.run (host : Host m) (wording : Wording) (environment : Environment)
    (invocation : Invocation) : m Report := do
  let (result, notices) ←
    (invocation.command.run host wording environment invocation.configDirectory).start
  pure (report (invocation.tone environment) result notices)

/-- Runs the program with the words of a command line. -/
def runProgram (host : Host m) (wording : Wording) (environment : Environment)
    (words : List Bytes) : m Report :=
  match Invocation.read (environment.setting? configVariable) words with
  | .error stop => pure (stop.report wording words)
  | .ok invocation => invocation.run host wording environment

end
end TrustedRoot.CommandLine
