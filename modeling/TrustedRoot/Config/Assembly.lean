import TrustedRoot.Config.Discovery
import TrustedRoot.Config.Validity

/-!
The configuration of a run, assembled from its layers: the files, the variables, and what the caller
lays over them. The result keeps the rules.
-/

namespace TrustedRoot.Config

/-- Lays configurations over each other, the last one on top. -/
def mergeAll (configs : List Config) : Config := configs.foldl merge empty

/-- What to assemble a configuration from. -/
structure Plan where
  /-- The directory whose project counts; that of the run unless given. -/
  workingDirectory : Option Path
  /-- The directory of the user's file; the default one unless given. -/
  configDirectory : Option Path
  skipsFiles : Bool
  skipsVariables : Bool
  /-- What is laid over all else. -/
  overrides : Option Config

/-- The plan that leaves nothing out and adds nothing. -/
def Plan.standard : Plan := ⟨none, none, false, false, none⟩

section
variable {m : Type → Type} [Monad m]

/-- The layer of the files. -/
def fileLayer (host : Host m) (environment : Environment) (plan : Plan) :
    Session Error m Config := do
  if plan.skipsFiles then pure empty
  else
    let directory ← Session.check <| match plan.workingDirectory with
      | some directory => .ok directory
      | none => environment.workingDirectory.mapError .io
    let sources ← loadAll host environment directory plan.configDirectory
    pure (mergeAll (sources.map (·.config)))

/-- The layer of the variables over a configuration. -/
def withVariables (environment : Environment) (plan : Plan) (config : Config) :
    Except Error Config :=
  if plan.skipsVariables then .ok config
  else match applyVariables environment config with
    | (config, .ok ()) => .ok config
    | (_, .error e) => .error e

/-- Assembles a configuration. -/
def assemble (host : Host m) (environment : Environment) (plan : Plan) :
    Session Error m Config := do
  let files ← fileLayer host environment plan
  let config ← Session.check (withVariables environment plan files)
  let config := config.merge (plan.overrides.getD empty)
  Session.check (config.validate environment.home)
  pure config

end
end TrustedRoot.Config
