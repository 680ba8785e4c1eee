import TrustedRoot.CommandLine.Program
import TrustedRoot.Proofs.Session

namespace TrustedRoot

open Session

namespace Config

variable (host : Host Id) (environment : Environment)

private theorem silent_load (path : Path) : (load host path).Silent :=
  .bind (.ask _) fun _ => .bind (.check _) fun _ => .bind (.log _ _) fun _ => .pure _

private theorem silent_loadUser (directory : Option Path) :
    (loadUser host environment directory).Silent := by
  refine .bind (.check _) fun path => .bind (.ask _) fun present => ?_
  cases present with
  | true => exact .bind (silent_load host _) fun _ => .pure _
  | false => exact .bind (.log _ _) fun _ => .pure _

private theorem silent_loadNearest (directories : List Path) :
    (loadNearest host directories).Silent := by
  induction directories with
  | nil => exact .pure _
  | cons directory rest ih =>
    refine .bind (.ask _) fun found => ?_
    cases found with
    | true => exact .bind (silent_load host _) fun _ => .pure _
    | false => exact ih

/-- Assembling a configuration writes no output. -/
theorem silent_assemble (plan : Plan) : (assemble host environment plan).Silent := by
  refine .bind ?_ fun _ => .bind (.check _) fun _ => .bind (.check _) fun _ => .pure _
  unfold fileLayer
  split_ifs
  · exact .pure _
  · refine .bind (.check _) fun directory => .bind ?_ fun _ => .pure _
    exact .bind (silent_loadUser host environment _) fun _ =>
      .bind (silent_loadNearest host _) fun _ => .pure _

end Config

namespace CommandLine

variable (host : Host Id) (wording : Wording) (environment : Environment)
  (configDirectory : Option Path) (root path : Path) (before : List Notice)

@[simp] theorem result_checkLibrary {α : Type} (answer : Except Error α) :
    result (checkLibrary answer : Session Failure Id α) before = answer.mapError .library :=
  rfl

@[simp] theorem notices_checkLibrary {α : Type} (answer : Except Error α) :
    notices (checkLibrary answer : Session Failure Id α) before = before :=
  rfl

/-- A configuration that cannot be assembled ends a command with the message of the error. -/
theorem result_loadConfig :
    result (loadConfig host environment configDirectory) before =
      (result (Config.assemble host environment
        { Config.Plan.standard with configDirectory }) before).mapError
          fun e => .config e.message :=
  rfl

/-- A command sees the outcome of a resolution and nothing of its log. -/
theorem result_resolve :
    result (resolve host root path) before =
      (Resolver.resolve host.toLookup root path).run.outcome.mapError .library := by
  simp [resolve, result_bind]

/-- Choosing a root writes no output. -/
theorem silent_chooseRoot (selection : Selection) :
    (chooseRoot host environment configDirectory selection).Silent := by
  unfold chooseRoot
  cases selection.root with
  | some root => exact .check _
  | none =>
    refine .bind (.failAs _ (Config.silent_assemble host environment _)) fun config => ?_
    cases selection.rootName with
    | some name => exact .check _
    | none =>
      refine .bind (.check _) fun found => ?_
      cases found with
      | some root => exact .pure _
      | none => exact .throw _

/-- Resolving a path writes no output. -/
theorem silent_resolve : (resolve host root path).Silent :=
  .bind (.ask _) fun _ => .bind (.putAll (outputOf_records _)) fun _ => .check _

/-- The exit code of a run is told by how its command ends. -/
theorem exitCode_run (verbose quiet : Bool) (command : Command) :
    (Invocation.run host wording environment
        ⟨verbose, quiet, configDirectory, command⟩).run.exitCode =
      match (command.run host wording environment configDirectory).start.run.1 with
      | .ok () => 0
      | .error failure => failure.exitCode :=
  rfl

/-- A wording that says nothing. -/
def wordless : Wording := ⟨fun _ _ => "", fun _ => ""⟩

/-- An environment without variables. -/
def bare : Environment := ⟨some (.ofString "/home/user"), .ok (.ofString "/work"), fun _ => none⟩

end CommandLine
end TrustedRoot
