import TrustedRoot.Path.Basic

/-!
Where a path leads if nothing on the way is a link. A `Place` is the result of walking the
components; spelling it again gives the normal form of the path. Confinement below a root and the
test for lying inside one are stated with normal forms.
-/

namespace TrustedRoot

/-- A place named relative to `/` or to the working directory: so many levels up from there, then
down the names of `trail`, whose innermost name comes first. -/
structure Place where
  absolute : Bool
  ups : Nat
  trail : List Name
deriving DecidableEq, Repr

namespace Place

/-- The place that a path without components names. -/
def start (absolute : Bool) : Place := ⟨absolute, 0, []⟩

/-- One step of the walk. `..` leaves the innermost name; above `/` it stays, above the working
directory it is remembered. -/
def step (place : Place) : Component → Place
  | .root | .here => place
  | .name n => { place with trail := n :: place.trail }
  | .parent =>
    match place.trail with
    | _ :: outer => { place with trail := outer }
    | [] => if place.absolute then place else { place with ups := place.ups + 1 }

/-- The names that lead down to the place, outermost first. -/
def names (place : Place) : List Name := place.trail.reverse

/-- The spelling of a place: `/` or the `..` that are left, then the names; `.` if that is nothing.
-/
def path (place : Place) : Path :=
  if place.absolute then Path.absolute place.names
  else match List.replicate place.ups [dot, dot] ++ place.names with
    | [] => ⟨[dot]⟩
    | body => ⟨spell body⟩

end Place

namespace Path

/-- The place that a path names. -/
def place (p : Path) : Place := p.components.foldl Place.step (Place.start p.isAbsolute)

/-- The normal form of a path: separators are single, `.` is gone, and `..` stands only in front of
a relative path. -/
def normalize (p : Path) : Path := p.place.path

/-- The names to which `p` leads in a tree whose top it cannot leave: an absolute path is read from
that top as well, and `..` stays there. -/
def confinedNames (p : Path) : List Name := (rootDirectory.join p).place.names

/-- `p` below `root` with nothing followed: whatever `p` spells, the result lies in `root`. -/
def confine (root p : Path) : Path := (root.join (ofNames p.confinedNames)).normalize

/-- The normal form of `target`, if it lies in `root` by its spelling. -/
def inside? (target root : Path) : Option Path :=
  if target.normalize.startsWith root.normalize then some target.normalize else none

end Path
end TrustedRoot
