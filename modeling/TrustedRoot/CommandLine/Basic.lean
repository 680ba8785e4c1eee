import TrustedRoot.Path.Basic

/-!
What the words of a command line ask for.
-/

namespace TrustedRoot.CommandLine

/-- Which root a command confines paths to; the configured default one if neither is given. -/
structure Selection where
  /-- The root itself. -/
  root : Option Path
  /-- The name of a configured root. -/
  rootName : Option String
deriving DecidableEq, Repr

/-- A shell that completions can be written for. -/
inductive Shell
  | bash
  | elvish
  | fish
  | powershell
  | zsh
deriving DecidableEq, Repr

namespace Shell

/-- Every shell. -/
def all : List Shell := [bash, elvish, fish, powershell, zsh]

/-- The name of a shell. -/
def name : Shell → String
  | .bash => "bash"
  | .elvish => "elvish"
  | .fish => "fish"
  | .powershell => "powershell"
  | .zsh => "zsh"

/-- The shell with the given name. -/
def ofName? (name : String) : Option Shell := all.find? fun shell => shell.name = name

end Shell

/-- A command with all it needs. -/
inductive Command
  /-- Resolves paths and prints where they lead, as one JSON object each if `json` is set. -/
  | join (selection : Selection) (json : Bool) (paths : List Path)
  /-- Makes sure that a path resolves inside its root. -/
  | check (selection : Selection) (path : Path)
  /-- Lists the configured roots. -/
  | roots
  /-- Tells whether a file holds a valid configuration. -/
  | validate (file : Path)
  /-- Writes the completions for a shell. -/
  | completions (shell : Shell)
deriving DecidableEq, Repr

/-- A command line that was understood. -/
structure Invocation where
  verbose : Bool
  quiet : Bool
  /-- The directory of the user's configuration, if another one than the default is asked for. -/
  configDirectory : Option Path
  command : Command
deriving DecidableEq, Repr

/-- Why no command is run: help or the version was asked for, or the words are wrong. -/
inductive Stop
  | helpAsked
  | versionAsked
  /-- There are no words at all. -/
  | nothingAsked
  /-- There are flags, but no command. -/
  | missingCommand
  | unknownCommand
  | unknownArgument
  /-- The command lacks something it cannot do without. -/
  | missingArgument
  /-- A value is missing, empty, or not one of those that are possible. -/
  | invalidValue
  /-- Something is given twice, or beside something that excludes it. -/
  | conflict
  /-- A value that must be text is not UTF-8. -/
  | notText
  /-- A value is attached to a flag that takes none. -/
  | valueNotTaken
deriving DecidableEq, Repr

end TrustedRoot.CommandLine
