import TrustedRoot.CommandLine.Program
import TrustedRoot.Machine.Wording

/-!
The program. The system's files, variables and channels are reached here and nowhere else.

Three things are left out:
* Where links lead. The runtime cannot tell, so a resolution that meets a link below its root fails
  as `unsupported`, and none is taken for something else.
* The list of the users. Where `HOME` is not set, the home directory counts as unknown.
* Channels that fail. A command never learns what becomes of its notices (`Session.put` always
  succeeds), and the report of a run is written when the run is over.
-/

namespace TrustedRoot.Machine

/-- The number of an error of the system. Some calls of the runtime give it negated. -/
def numberOf (number : UInt32) : Nat :=
  if number.toNat < Nat.pow 2 31 then number.toNat else Nat.pow 2 32 - number.toNat

/-- The kind of error that a number of the system stands for. -/
def kindOf (number : UInt32) : IoKind :=
  match numberOf number with
  | 1 | 13 => .permissionDenied
  | 2 => .notFound
  | 17 => .alreadyExists
  | 20 => .notADirectory
  | 21 => .isADirectory
  | 22 => .invalidInput
  | 36 => .invalidFilename
  | 40 => .filesystemLoop
  | _ => .uncategorized

/-- An error of the system with its number. -/
def numbered (number : UInt32) (details : String) : IoError :=
  ⟨kindOf number, s!"{details} (os error {numberOf number})"⟩

/-- What the runtime tells of a failed call. -/
def ofRuntime : IO.Error → IoError
  | .alreadyExists _ number details
  | .otherError number details
  | .resourceBusy number details
  | .resourceVanished number details
  | .unsupportedOperation number details
  | .hardwareFault number details
  | .unsatisfiedConstraints number details
  | .illegalOperation number details
  | .protocolError number details
  | .timeExpired number details
  | .interrupted _ number details
  | .noFileOrDirectory _ number details
  | .invalidArgument _ number details
  | .permissionDenied _ number details
  | .resourceExhausted _ number details
  | .inappropriateType _ number details
  | .noSuchThing _ number details => numbered number details
  | .unexpectedEof => .ofKind .unexpectedEof
  | .userError text => ⟨.other, text⟩

/-- A call with its error as a value. -/
def attempt {α : Type} (call : IO α) : IO (Except IoError α) := do
  try pure (.ok (← call)) catch e => pure (.error (ofRuntime e))

/-- A question about a path, which the runtime takes as text only. The empty path names nothing. -/
def withText {α : Type} (p : Path) (ask : String → IO (Except IoError α)) :
    IO (Except IoError α) :=
  match p.text? with
  | none => pure (.error ⟨.invalidInput, "path contains invalid UTF-8 characters"⟩)
  | some text =>
    if text.isEmpty then pure (.error (numbered 2 "No such file or directory"))
    else ask text

/-- The bytes of an array. -/
def bytesOf (contents : ByteArray) : Bytes := contents.toList

/-- What a path names, the link itself if it is one. -/
def inspect (p : Path) : IO (Except IoError Entry) :=
  withText p fun text => attempt do
    let file := (← IO.currentDir) / text
    match (← file.symlinkMetadata).type with
    | .symlink => pure Entry.link
    | .dir => pure Entry.directory
    | _ => pure Entry.file

/-- Whether a path names something that is as it must be, links followed. -/
def holds (p : Path) (test : IO.FS.FileType → Bool) : IO Bool := do
  let answer ← withText p fun text => attempt do
    let file := (← IO.currentDir) / text
    pure (test (← file.metadata).type)
  match answer with
  | .ok b => pure b
  | .error _ => pure false

/-- The files of the system, but for where links lead. -/
def host : Host IO where
  inspect := inspect
  target _ := pure (.error (.ofKind .unsupported))
  isPresent p := holds p fun _ => true
  isFile p := holds p fun type => type == .file
  read p := withText p fun text => attempt do
    pure (bytesOf (← IO.FS.readBinFile ((← IO.currentDir) / text)))

/-- The variables that the program looks at. -/
def variableNames : List String := [CommandLine.configVariable, Verbosity.settingVariable,
  Config.rootVariable, Config.defaultRootVariable, Config.rootsVariable]

/-- The surroundings that the program was started in. -/
def environment : IO Environment := do
  let home ← IO.getEnv "HOME"
  let directory ← attempt do pure (Path.ofString (← IO.currentDir).toString)
  let settings ← variableNames.mapM fun name => do pure (name, ← IO.getEnv name)
  pure {
    home := home.map .ofString
    workingDirectory := directory
    setting? := fun name => ((settings.lookup name).join).map Utf8.encode }

end TrustedRoot.Machine

open TrustedRoot in
/-- Runs the program with the words of the command line. -/
def main (words : List String) : IO UInt32 := do
  let report ← CommandLine.runProgram Machine.host Machine.wording (← Machine.environment)
    (words.map Utf8.encode)
  IO.print report.output
  IO.eprint report.errors
  pure (UInt32.ofNat report.exitCode)
