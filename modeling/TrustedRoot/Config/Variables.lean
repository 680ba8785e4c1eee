import TrustedRoot.Config.Basic
import TrustedRoot.Environment
import TrustedRoot.Text.Blank
import TrustedRoot.Text.Split

/-!
Configuration by environment variables.
-/

namespace TrustedRoot.Config

/-- The variable with the overriding root. -/
def rootVariable : String := "ROOTJOIN_ROOT"

/-- The variable with the default name. -/
def defaultRootVariable : String := "ROOTJOIN_DEFAULT_ROOT"

/-- The variable with a list of roots. -/
def rootsVariable : String := "ROOTJOIN_ROOTS"

/-- A value as it is, if it is not blank. -/
def notBlank (name value : String) : Except Error String :=
  if Blank.isAllBlank value.toList then .error (.validation name "Cannot be empty") else .ok value

/-- One item of a list of roots, `name=path` without the blanks around either; nothing for a blank
item. The path may hold further `=`. -/
def parseRoot (item : List Char) : Except Error (Option (String × Path)) :=
  let item := Blank.trim item
  if item = [] then .ok none
  else match Split.splitFirst '=' item with
    | none =>
      .error (.validation rootsVariable s!"Expected name=path, got '{String.ofList item}'")
    | some (name, path) =>
      let name := Blank.trim name
      let path := Blank.trim path
      if name = [] ∨ path = [] then
        .error (.validation rootsVariable s!"Empty name or path in '{String.ofList item}'")
      else .ok (some (String.ofList name, ⟨Utf8.encodeChars path⟩))

/-- The roots of a list of items; the first bad item rejects the list. -/
def parseItems : List (List Char) → Except Error (List (String × Path))
  | [] => .ok []
  | item :: rest => do
    let root ← parseRoot item
    let roots ← parseItems rest
    .ok (root.toList ++ roots)

/-- The roots of a list with commas between its items, in order. -/
def parseRoots (text : String) : Except Error (List (String × Path)) :=
  parseItems (Split.splitOn ',' text.toList)

/-- Adds roots in order; a later one of the same name replaces an earlier one. -/
def insertRoots (config : Config) (roots : List (String × Path)) : Config :=
  { config with
    roots := roots.foldl (fun known (name, path) => known.insert name path) config.roots }

/-- One variable laid over a configuration, if it is set. -/
def applyVariable (environment : Environment) (name : String) (config : Config)
    (use : String → Except Error Config) : Config × Except Error Unit :=
  match environment.text? name with
  | none => (config, .ok ())
  | some value =>
    match use value with
    | .ok config => (config, .ok ())
    | .error e => (config, .error e)

/-- The variables laid over a configuration, one after the other. The first bad one ends this; what
was laid over the configuration before stays. -/
def applyVariables (environment : Environment) (config : Config) : Config × Except Error Unit :=
  let (config, result) := applyVariable environment rootVariable config fun value => do
    let value ← notBlank rootVariable value
    .ok { config with rootOverride := some (.ofString value) }
  match result with
  | .error e => (config, .error e)
  | .ok () =>
    let (config, result) := applyVariable environment defaultRootVariable config fun value => do
      let value ← notBlank defaultRootVariable value
      .ok { config with defaultRoot := some value }
    match result with
    | .error e => (config, .error e)
    | .ok () =>
      applyVariable environment rootsVariable config fun value => do
        .ok (config.insertRoots (← parseRoots value))

end TrustedRoot.Config
