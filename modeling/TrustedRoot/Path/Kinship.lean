import TrustedRoot.Path.Place

/-!
How two paths lie to each other by their spelling alone.
-/

namespace TrustedRoot

/-- What the first of two paths is to the second. -/
inductive Kinship
  | ancestor
  | descendant
  | same
  | unrelated
deriving DecidableEq, Repr

namespace Kinship

/-- What `p` is to `q` once both are in normal form. -/
def between (p q : Path) : Kinship :=
  let a := p.normalize
  let b := q.normalize
  if a = b then .same
  else if b.startsWith a then .ancestor
  else if a.startsWith b then .descendant
  else .unrelated

/-- Whether one of the two paths leads to the other. -/
def isHierarchical : Kinship → Bool
  | .unrelated => false
  | _ => true

/-- Whether `p` is `directory` or lies below it. -/
def isWithin (p directory : Path) : Bool :=
  match between p directory with
  | .descendant | .same => true
  | _ => false

/-- Whether `other` is `p` or lies below it. -/
def contains (p other : Path) : Bool :=
  match between p other with
  | .ancestor | .same => true
  | _ => false

/-- The kinship of two paths in words, each path as it was given. -/
def description (kinship : Kinship) (p q : Path) : String :=
  match kinship with
  | .ancestor => s!"{p.display} is an ancestor of {q.display}"
  | .descendant => s!"{p.display} is a descendant of {q.display}"
  | .same => s!"{p.display} and {q.display} are the same path"
  | .unrelated => s!"{p.display} and {q.display} are unrelated paths"

end Kinship
end TrustedRoot
