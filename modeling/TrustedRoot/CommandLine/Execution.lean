import TrustedRoot.CommandLine.Failure
import TrustedRoot.CommandLine.Wording
import TrustedRoot.Config.Assembly
import TrustedRoot.Json
import TrustedRoot.Path.Kinship

/-!
What the commands do. A command puts its notices out the same way whatever the verbosity; how much
of them is shown is decided where they are written.
-/

namespace TrustedRoot.CommandLine

section
variable {m : Type → Type} [Monad m]

/-- Assembles the configuration for a command. -/
def loadConfig (host : Host m) (environment : Environment) (configDirectory : Option Path) :
    Session Failure m Config :=
  .failAs (fun e => .config e.message) <|
    Config.assemble host environment { Config.Plan.standard with configDirectory }

/-- Goes on with a result of the library or fails with its error. -/
def checkLibrary {α : Type} (result : Except Error α) : Session Failure m α :=
  .failAs .library (Session.check result)

/-- The failure of a command that needs a root and finds none. -/
def noRoot : Failure :=
  .invalidArguments "no root given; pass --root or --root-name, or configure default_root"

/-- The root to confine paths to. A root that is given itself needs no configuration. -/
def chooseRoot (host : Host m) (environment : Environment) (configDirectory : Option Path)
    (selection : Selection) : Session Failure m Path :=
  match selection.root with
  | some root => checkLibrary (root.expandHome environment.home)
  | none => do
    let config ← loadConfig host environment configDirectory
    match selection.rootName with
    | some name => checkLibrary (config.root environment.home name)
    | none =>
      match ← checkLibrary (config.defaultRootPath environment.home) with
      | some root => pure root
      | none => throw noRoot

/-- Resolves a path and puts the messages of the resolution out. -/
def resolve (host : Host m) (root path : Path) : Session Failure m Resolution := do
  let run ← Session.ask (Resolver.resolve host.toLookup root path)
  Session.putAll (run.records.map .record)
  checkLibrary run.outcome

/-- Writes a resolution on a line of its own. -/
def printPlain (resolution : Resolution) : Session Failure m Unit :=
  Session.put (.output s!"{resolution.path.display}\n")

/-- Writes a resolution as JSON on a line of its own. What was written of it stays even if it cannot
be written to its end. -/
def printJson (path : Path) (resolution : Resolution) : Session Failure m Unit := do
  let written := (Json.ofJoined path resolution).write
  if written.complete then Session.put (.output (written.text ++ "\n"))
  else
    Session.put (.output written.text)
    throw (.io Json.notText)

/-- Resolves a path and prints the resolution. -/
def joinOne (host : Host m) (root : Path) (json : Bool) (path : Path) :
    Session Failure m Unit := do
  let resolution ← resolve host root path
  Session.put (.message .info
    s!"{path.display} -> {resolution.path.display} ({resolution.expansions} symlinks)")
  if json then printJson path resolution else printPlain resolution

/-- Resolves paths in order and prints each; the first that fails ends this. -/
def joinAll (host : Host m) (root : Path) (json : Bool) : List Path → Session Failure m Unit
  | [] => pure ()
  | path :: rest => do
    joinOne host root json path
    joinAll host root json rest

/-- Makes sure that a path resolves inside a root. -/
def checkOne (host : Host m) (root path : Path) : Session Failure m Unit := do
  let resolution ← resolve host root path
  let kinship := Kinship.between resolution.path root
  Session.put (.message .info (kinship.description resolution.path root))
  if Kinship.isWithin resolution.path root then pure ()
  else throw (.refuted s!"{path.display} resolves outside {root.display}")

/-- Prints the roots of a configuration in the order of their names, the default one marked. -/
def printRoots (environment : Environment) (config : Config) :
    List String → Session Failure m Unit
  | [] => pure ()
  | name :: rest => do
    let path ← checkLibrary (config.root environment.home name)
    let mark := if config.defaultRoot = some name then "*" else ""
    Session.put (.output s!"{name}{mark}\t{path.display}\n")
    printRoots environment config rest

/-- Lists the configured roots, the overriding one first. -/
def listRoots (host : Host m) (environment : Environment) (configDirectory : Option Path) :
    Session Failure m Unit := do
  let config ← loadConfig host environment configDirectory
  match config.rootOverride with
  | some path => Session.put (.output s!"(env)\t{path.display}\n")
  | none => pure ()
  printRoots environment config config.roots.keys
  if config.roots.isEmpty && config.rootOverride.isNone then
    Session.put (.remark "No roots configured\n")
  else pure ()

/-- Tells whether a file holds a valid configuration. -/
def validateFile (host : Host m) (environment : Environment) (file : Path) :
    Session Failure m Unit := do
  if ← Session.ask (host.isPresent file) then
    let text ← Session.failAs .io (Session.check (← Session.ask (host.readText file)))
    match Config.parse text with
    | .error fault =>
      Session.put (.message .error s!"Parse error: {fault.message}")
      throw (.refuted "Configuration file is invalid")
    | .ok config =>
      match config.validate environment.home with
      | .error e =>
        Session.put (.message .error s!"Validation error: {e.message}")
        throw (.refuted "Configuration validation failed")
      | .ok () => Session.put (.output "Configuration is valid\n")
  else throw (.invalidArguments s!"File not found: {file.display}")

/-- Writes the completions for a shell. -/
def complete (wording : Wording) (shell : Shell) : Session Failure m Unit := do
  Session.put (.remark s!"# Generating {shell.name} completion script\n")
  Session.put (.remark shell.hint)
  Session.put (.output (wording.script shell))

/-- Runs a command. -/
def Command.run (host : Host m) (wording : Wording) (environment : Environment)
    (configDirectory : Option Path) : Command → Session Failure m Unit
  | .join selection json paths => do
    joinAll host (← chooseRoot host environment configDirectory selection) json paths
  | .check selection path => do
    checkOne host (← chooseRoot host environment configDirectory selection) path
  | .roots => listRoots host environment configDirectory
  | .validate file => validateFile host environment file
  | .completions shell => complete wording shell

end
end TrustedRoot.CommandLine
