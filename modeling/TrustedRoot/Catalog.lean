import TrustedRoot.Lookup
import TrustedRoot.Path.Place

/-!
A tree of files in memory. It is built entry by entry, in any order, and answers the questions of a
`Lookup` as a system does: links on the way to an entry are followed, the entry itself is not.
-/

namespace TrustedRoot

/-- What a catalogue holds under a path. -/
inductive Node
  | file
  | directory
  | link (target : Path)
deriving DecidableEq, Repr

/-- What is known of a node without following it. -/
def Node.entry : Node → Entry
  | .file => Entry.file
  | .directory => Entry.directory
  | .link _ => Entry.link

/-- A tree of files: the nodes by the normal form of their paths, and the paths of which every
question fails. -/
structure Catalog where
  nodes : Std.ExtTreeMap Path Node
  failures : Std.ExtTreeMap Path IoKind

namespace Catalog

/-- The catalogue without entries. -/
def empty : Catalog := ⟨∅, ∅⟩

/-- The paths above `p` that need a directory: its proper ancestors but `/` and the empty path. -/
def parentsOf (p : Path) : List Path := p.ancestors.tail.filter fun q => q.parent?.isSome

/-- Puts a node under a path. Missing directories above it are made; what stands there already
stays, while a node under the path itself is replaced. -/
def insert (catalog : Catalog) (p : Path) (node : Node) : Catalog :=
  let p := p.normalize
  let nodes := (parentsOf p).foldl (fun nodes q => nodes.insertIfNew q .directory) catalog.nodes
  { catalog with nodes := nodes.insert p node }

/-- Makes every question about a path fail. -/
def fail (catalog : Catalog) (p : Path) (kind : IoKind) : Catalog :=
  { catalog with failures := catalog.failures.insert p.normalize kind }

/-- How many links may be followed on the way to a directory. -/
def maxHops : Nat := 40

/-- The error of a way with too many links. -/
def tooManyLinks : IoError := ⟨.other, "too many levels of symbolic links"⟩

/-- Follows components down from the directory `trail`, innermost name first. A link starts again at
`/` with its target, read from the directory that holds it, in front of what is left. Gives the
directory reached and how many links were followed. -/
def descend (catalog : Catalog) (trail : List Name) (hops : Nat) :
    List Component → Except IoError (List Name × Nat)
  | [] => .ok (trail, hops)
  | .root :: rest | .here :: rest => descend catalog trail hops rest
  | .parent :: rest => descend catalog trail.tail hops rest
  | .name n :: rest =>
    match catalog.nodes[Path.absolute (n :: trail).reverse]? with
    | none => .error (.ofKind .notFound)
    | some .file => .error (.ofKind .notADirectory)
    | some .directory => descend catalog (n :: trail) hops rest
    | some (.link target) =>
      if maxHops ≤ hops then .error tooManyLinks
      else
        let target := (Path.absolute trail.reverse).join target
        descend catalog [] (hops + 1) (target.components ++ rest)
termination_by pending => (maxHops - hops, pending.length)
decreasing_by all_goals simp_wf; omega

/-- The directory that a path names once every link is followed, and how many links that took. A
relative path is read from `/`. -/
def directory (catalog : Catalog) (p : Path) : Except IoError (Path × Nat) :=
  (catalog.descend [] 0 p.components).map fun (trail, hops) => (Path.absolute trail.reverse, hops)

/-- The node that a path in normal form names, the link itself if it is one; none for a path that
ends in no name, which is a directory. -/
def node? (catalog : Catalog) (p : Path) : Except IoError (Option Node) :=
  match p.fileName? with
  | none => .ok none
  | some n => do
    let (parent, _) ← catalog.directory (p.parent?.getD Path.rootDirectory)
    match catalog.nodes[parent.join ⟨n⟩]? with
    | none => .error (.ofKind .notFound)
    | some node => .ok (some node)

/-- The node of a path, unless questions about the path fail. -/
def find? (catalog : Catalog) (p : Path) : Except IoError (Option Node) :=
  match catalog.failures[p.normalize]? with
  | some kind => .error (.ofKind kind)
  | none => catalog.node? p.normalize

/-- What a path names, the link itself if it is one. -/
def inspect (catalog : Catalog) (p : Path) : Except IoError Entry :=
  (catalog.find? p).map fun node => (node.getD .directory).entry

/-- The target of the link that a path names. -/
def target (catalog : Catalog) (p : Path) : Except IoError Path := do
  match ← catalog.find? p with
  | some (.link target) => .ok target
  | _ => .error ⟨.invalidInput, "not a symbolic link"⟩

/-- The questions of a resolver, answered by the catalogue. -/
def lookup (catalog : Catalog) : Lookup Id where
  inspect := catalog.inspect
  target := catalog.target

end Catalog
end TrustedRoot
