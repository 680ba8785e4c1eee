import TrustedRoot.Config.Document
import TrustedRoot.Config.Variables
import TrustedRoot.Host
import TrustedRoot.Session

/-!
Configuration files: the one of the user, and the one of the project, which is looked for in a
directory and those above it.
-/

namespace TrustedRoot.Config

/-- A configuration with the file that it comes from. A greater precedence is laid over a smaller
one. -/
structure Source where
  path : Path
  precedence : Nat
  config : Config

/-- The name of the file of a project. -/
def projectFile : Path := .ofString "rootjoin.yaml"

/-- The name of the file of the user. -/
def userFile : Path := .ofString "config.yaml"

/-- The directory of the user's file unless another one is given. -/
def defaultDirectory : Option Path → Except Error Path
  | some home => .ok (home.join (.ofString ".rootjoin"))
  | none => .error (Path.homeUnknown (.ofString "~/.rootjoin"))

/-- The configuration that the contents of a file hold. -/
def ofContents (path : Path) (contents : Except IoError Bytes) : Except Error Config :=
  match textOfContents contents with
  | .error e => .error (.invalidPath path s!"Failed to read configuration file: {e.text}")
  | .ok text =>
    match parse text with
    | .error fault => .error (.configuration fault)
    | .ok config => .ok config

section
variable {m : Type → Type} [Monad m]

/-- Loads a file. -/
def load (host : Host m) (path : Path) : Session Error m Config := do
  let config ← Session.check (ofContents path (← Session.ask (host.read path)))
  Session.log .debug s!"loaded config from {path.display}"
  pure config

/-- Where the user's file is. -/
def userPath (environment : Environment) (directory : Option Path) : Except Error Path := do
  let directory ← match directory with
    | some directory => .ok directory
    | none => defaultDirectory environment.home
  .ok (directory.join userFile)

/-- Loads the file of the user, if there is one. -/
def loadUser (host : Host m) (environment : Environment) (directory : Option Path) :
    Session Error m (Option Source) := do
  let path ← Session.check (userPath environment directory)
  if ← Session.ask (host.isPresent path) then
    pure (some ⟨path, 1, ← load host path⟩)
  else
    Session.log .debug s!"no user config at {path.display}"
    pure none

/-- Loads the file of a project from the first of the given directories that has one. -/
def loadNearest (host : Host m) : List Path → Session Error m (Option Source)
  | [] => pure none
  | directory :: rest => do
    let path := directory.join projectFile
    if ← Session.ask (host.isFile path) then
      pure (some ⟨path, 2, ← load host path⟩)
    else loadNearest host rest

/-- Loads the file of the project around a directory, if there is one. -/
def loadProject (host : Host m) (directory : Path) : Session Error m (Option Source) :=
  loadNearest host directory.ancestors

/-- Loads the files, those of a smaller precedence first. -/
def loadAll (host : Host m) (environment : Environment) (workingDirectory : Path)
    (configDirectory : Option Path) : Session Error m (List Source) := do
  let user ← loadUser host environment configDirectory
  let project ← loadProject host workingDirectory
  pure ((user.toList ++ project.toList).mergeSort fun a b => a.precedence ≤ b.precedence)

end
end TrustedRoot.Config
