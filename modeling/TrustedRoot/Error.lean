import TrustedRoot.IoError
import TrustedRoot.Path.Basic
import TrustedRoot.Yaml.Fault

/-!
The errors of the library and their messages.
-/

namespace TrustedRoot

/-- Why an operation of the library failed. -/
inductive Error
  /-- Resolving `path` under `root` met more links than `limit`. -/
  | symlinkLoop (root path : Path) (limit : Nat)
  /-- The lookup of an entry failed for another reason than its absence. -/
  | lookup (path : Path) (source : IoError)
  | invalidPath (path : Path) (reason : String)
  /-- A part of a configuration breaks a rule. -/
  | validation (field message : String)
  /-- A configuration file is not what it should be. -/
  | configuration (fault : Yaml.Fault)
  | io (source : IoError)
  /-- No root is configured under the name. -/
  | unknownRoot (name : String)
deriving DecidableEq, Repr

namespace Error

/-- The message of an error. -/
def message : Error → String
  | .symlinkLoop root path limit =>
    s!"too many levels of symbolic links (limit {limit}) resolving {path.display} under {root.display}"
  | .lookup path source => s!"lookup failed for {path.display}: {source.text}"
  | .invalidPath path reason => s!"invalid path {path.display}: {reason}"
  | .validation field message => s!"validation error for '{field}': {message}"
  | .configuration fault => s!"configuration error: {fault.message}"
  | .io source => s!"I/O error: {source.text}"
  | .unknownRoot name => s!"unknown root '{name}'"

/-- Whether too many links were met. -/
def isSymlinkLoop : Error → Bool
  | .symlinkLoop .. => true
  | _ => false

/-- Whether the lookup of an entry failed. -/
def isLookupFailure : Error → Bool
  | .lookup .. => true
  | _ => false

/-- The error of the system behind an error, if there is one. -/
def ioError? : Error → Option IoError
  | .lookup _ source | .io source => some source
  | _ => none

/-- The message of the error behind an error, if there is one. -/
def source? : Error → Option String
  | .lookup _ source | .io source => some source.text
  | .configuration fault => some fault.message
  | _ => none

end Error
end TrustedRoot
