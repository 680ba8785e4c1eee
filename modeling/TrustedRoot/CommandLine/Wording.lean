import TrustedRoot.CommandLine.Basic

/-!
What a run says beside the answers of its commands. How completions are loaded is told here; the
wording that nothing depends on is supplied by the caller of the run.
-/

namespace TrustedRoot.CommandLine

/-- The name of the program. -/
def programName : String := "rootjoin"

/-- Texts that the caller of a run supplies. -/
structure Wording where
  /-- What is written where no command is run, by the reason and the words of the command line. -/
  reply : Stop → List Bytes → String
  /-- The script that teaches a shell to complete command lines. -/
  script : Shell → String

/-- How the script for a shell is loaded. -/
def Shell.hint : Shell → String
  | .bash => s!"#   eval \"$({programName} completions bash)\"\n"
  | .elvish => ""
  | .fish =>
    s!"#   {programName} completions fish > ~/.config/fish/completions/{programName}.fish\n"
  | .powershell =>
    s!"#   {programName} completions powershell | Out-String | Invoke-Expression\n"
  | .zsh => s!"#   {programName} completions zsh > ~/.zsh/completions/_{programName}\n"

end TrustedRoot.CommandLine
