import TrustedRoot.Path.Home

/-!
Configurations: named trusted roots, the name of the one to use by default, and a root that goes
before all of them. Configurations are layered by merging.
-/

namespace TrustedRoot

/-- A configuration. -/
structure Config where
  /-- The name of the root to use when none is asked for. -/
  defaultRoot : Option String
  /-- The roots by their names. -/
  roots : Std.ExtTreeMap String Path
  /-- A root that goes before the default one. Files never set it. -/
  rootOverride : Option Path
deriving DecidableEq

namespace Config

/-- The configuration that says nothing. -/
def empty : Config := ⟨none, ∅, none⟩

/-- The root with the given name, its tilde expanded. -/
def root (config : Config) (home : Option Path) (name : String) : Except Error Path :=
  match config.roots[name]? with
  | none => .error (.unknownRoot name)
  | some path => path.expandHome home

/-- The root to use when none is asked for: the overriding one, else the one with the default name.
-/
def defaultRootPath (config : Config) (home : Option Path) : Except Error (Option Path) :=
  match config.rootOverride, config.defaultRoot with
  | some path, _ => (path.expandHome home).map some
  | none, some name => (config.root home name).map some
  | none, none => .ok none

/-- `lower` with `upper` laid over it: what `upper` sets replaces what `lower` sets, name by name.
-/
def merge (lower upper : Config) : Config where
  defaultRoot := upper.defaultRoot.or lower.defaultRoot
  roots := lower.roots ∪ upper.roots
  rootOverride := upper.rootOverride.or lower.rootOverride

end Config
end TrustedRoot
