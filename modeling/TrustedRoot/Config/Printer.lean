import TrustedRoot.Config.Basic
import TrustedRoot.Json
import TrustedRoot.Yaml.Printer

/-!
Configurations written as YAML and as JSON. The default name is always written, the roots only if
there are any, the overriding root never.
-/

namespace TrustedRoot.Config

/-- The fields of a configuration for YAML; none if a root is not UTF-8. -/
def yamlFields? (config : Config) : Option (List (String × Yaml.Printer.Value)) := do
  let roots ← config.roots.toList.mapM fun (name, path) => do
    some (name, Yaml.Printer.Value.string (← path.text?))
  let name := match config.defaultRoot with
    | some name => Yaml.Printer.Value.string name
    | none => .null
  some (("default_root", name) :: if roots.isEmpty then [] else [("roots", .mapping roots)])

/-- A configuration as YAML; none if a root is not UTF-8. -/
def toYaml? (config : Config) : Option String := config.yamlFields?.map Yaml.Printer.document

/-- A configuration as JSON. -/
def toJson (config : Config) : Json.Value :=
  let roots := config.roots.toList.map fun (name, path) => (name, Json.Value.path path)
  let name := match config.defaultRoot with
    | some name => Json.Value.text name
    | none => .null
  .object (("default_root", name) :: if roots.isEmpty then [] else [("roots", .object roots)])

end TrustedRoot.Config
