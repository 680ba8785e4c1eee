import TrustedRoot.CommandLine.Grammar
import TrustedRoot.CommandLine.Wording

/-!
The wording of this program's terminal. Nothing in the library depends on it.
-/

namespace TrustedRoot.Machine

open CommandLine

/-- Words with blanks between them. -/
def spaced (words : List String) : String := " ".intercalate words

/-- The words for the commands, help included. -/
def commandWords : List String := Verb.all.map Verb.word ++ ["help"]

/-- The words for the flags behind a command. -/
def flagWords (verb : Verb) : List String := (flags (some verb)).map fun row => "--" ++ row.1

/-- Lines of a text. -/
def lines (text : List String) : String := String.join (text.map fun line => line ++ "\n")

/-- The script of completions for a shell. -/
def script : Shell → String
  | .bash => lines <|
    ["_rootjoin() \x7b", "  local current=\"$\x7bCOMP_WORDS[COMP_CWORD]\x7d\"",
      "  case \"$\x7bCOMP_WORDS[1]\x7d\" in"]
    ++ Verb.all.map (fun verb => "    " ++ verb.word
      ++ ") COMPREPLY=($(compgen -f -W '" ++ spaced (flagWords verb) ++ "' -- \"$current\"));;")
    ++ ["    *) COMPREPLY=($(compgen -W '" ++ spaced commandWords ++ "' -- \"$current\"));;",
      "  esac", "\x7d", "complete -F _rootjoin rootjoin"]
  | .zsh => lines <|
    ["#compdef rootjoin", "if (( CURRENT == 2 )); then",
      "  compadd " ++ spaced commandWords, "  return", "fi", "case $words[2] in"]
    ++ Verb.all.map (fun verb => "  " ++ verb.word ++ ") compadd -- "
      ++ spaced (flagWords verb) ++ "; _files;;")
    ++ ["esac"]
  | .fish => lines <|
    ("complete -c rootjoin -n __fish_use_subcommand -a '" ++ spaced commandWords ++ "'")
      :: Verb.all.flatMap fun verb => (flags (some verb)).map fun row =>
        "complete -c rootjoin -n '__fish_seen_subcommand_from " ++ verb.word ++ "' -l " ++ row.1
  | .powershell => lines [
      "Register-ArgumentCompleter -Native -CommandName rootjoin -ScriptBlock \x7b",
      "  param($word)",
      "  '" ++ spaced commandWords ++ "'.Split(' ') | Where-Object \x7b $_ -like \"$word*\" \x7d",
      "\x7d"]
  | .elvish => lines [
      "set edit:completion:arg-completer[rootjoin] = \x7b|@words|",
      "  put " ++ spaced commandWords,
      "\x7d"]

/-- The version of the program. -/
def version : String := "0.1.0"

/-- How the program is used. -/
def usage : String := lines [
  "Resolve untrusted paths inside a trusted root",
  "",
  "Usage: rootjoin [OPTIONS] <COMMAND>",
  "",
  "Commands:",
  "  join [--root PATH | --root-name NAME] [--json] PATH...   Resolve paths beneath a root",
  "  check [--root PATH | --root-name NAME] PATH              Check that a path resolves within the root",
  "  roots                                                    List configured roots",
  "  validate CONFIG_PATH                                     Validate a configuration file",
  "  completions SHELL                                        Generate shell completion scripts",
  "  help [COMMAND]                                           Print this message",
  "",
  "Options:",
  "  --verbose            Enable verbose output",
  "  --quiet              Suppress non-essential output",
  "  --config-dir PATH    Override the user configuration directory",
  "  -h, --help           Print help",
  "  -V, --version        Print version"]

/-- What is wrong with a command line that is not run. -/
def complaint : Stop → String
  | .helpAsked | .versionAsked | .nothingAsked => ""
  | .missingCommand => "a command is required"
  | .unknownCommand => "unrecognized command"
  | .unknownArgument => "unexpected argument"
  | .missingArgument => "a required argument was not provided"
  | .invalidValue => "invalid or missing value"
  | .conflict => "an argument was given twice or cannot be used with another"
  | .notText => "a value is not valid UTF-8"
  | .valueNotTaken => "a flag takes no value"

/-- What is written where no command is run. -/
def reply : Stop → String
  | .helpAsked | .nothingAsked => usage
  | .versionAsked => s!"{programName} {version}\n"
  | stop => s!"error: {complaint stop}\n\nFor more information, try '--help'.\n"

/-- The texts of the program. -/
def wording : Wording where
  reply stop _ := reply stop
  script := script

end TrustedRoot.Machine
