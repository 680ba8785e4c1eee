import TrustedRoot.Config.Basic

/-!
The rules for a configuration. The first one that is broken is reported: the roots in the order of
their names, then the default name, then the overriding root.
-/

namespace TrustedRoot.Config

/-- The characters of a root's name. -/
def isNameChar (c : Char) : Bool := c.isAlphanum || c = '_' || c = '.' || c = '-'

/-- A root's name is not empty and holds ASCII letters, digits, `_`, `.` and `-` only. -/
def checkName (name : String) : Except Error Unit :=
  if name.isEmpty then .error (.validation "roots" "Root name cannot be empty")
  else if name.toList.all isNameChar then .ok ()
  else .error (.validation s!"roots.{name}"
    "Root name may only contain letters, digits, '_', '.' and '-'")

/-- A root is not empty and absolute once its tilde is expanded. -/
def checkPath (home : Option Path) (field : String) (path : Path) : Except Error Unit :=
  if path.bytes = [] then .error (.validation field "Root path cannot be empty")
  else match path.expandHome home with
    | .error e => .error (.validation field e.message)
    | .ok expanded =>
      if expanded.isAbsolute then .ok ()
      else .error (.validation field s!"Root path must be absolute: {path.display}")

/-- Every root has a name and a path as they must be. -/
def checkRoots (home : Option Path) : List (String × Path) → Except Error Unit
  | [] => .ok ()
  | (name, path) :: rest => do
    checkName name
    checkPath home s!"roots.{name}" path
    checkRoots home rest

/-- The default name is the name of a root. -/
def checkDefault (config : Config) : Except Error Unit :=
  match config.defaultRoot with
  | none => .ok ()
  | some name =>
    if config.roots.contains name then .ok ()
    else .error (.validation "default_root" s!"'{name}' is not a configured root")

/-- The overriding root is as a root must be. -/
def checkOverride (home : Option Path) (config : Config) : Except Error Unit :=
  match config.rootOverride with
  | none => .ok ()
  | some path => checkPath home "root_override" path

/-- Whether a configuration keeps the rules, and if not, which one it breaks first. -/
def validate (config : Config) (home : Option Path) : Except Error Unit := do
  checkRoots home config.roots.toList
  checkDefault config
  checkOverride home config

end TrustedRoot.Config
