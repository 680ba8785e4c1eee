import Std.Data.ExtTreeMap
import TrustedRoot.Text.Split
import TrustedRoot.Text.Utf8

/-!
Paths as the system spells them, and their components. A path keeps its bytes; what counts in most
questions is the list of its components, in which repeated and trailing separators and every `.`
but a leading one have vanished.
-/

namespace TrustedRoot

/-- A path: any bytes, kept as they are spelled. -/
structure Path where
  bytes : Bytes
deriving DecidableEq, Repr, Inhabited

/-- The name of a directory entry. -/
abbrev Name := Bytes

/-- The byte `/`. -/
abbrev slash : UInt8 := 47

/-- The byte `.`. -/
abbrev dot : UInt8 := 46

/-- One step of a path. Only the first component can be `root` or `here`. -/
inductive Component
  | root
  | here
  | parent
  | name (n : Name)
deriving DecidableEq, Repr

/-- The pieces of a spelling between separators; there is always at least one. -/
def segments (bytes : Bytes) : List Bytes := Split.splitOn slash bytes

/-- Segments written one after the other with separators between them. -/
def spell : List Bytes → Bytes
  | [] => []
  | [s] => s
  | s :: more => s ++ slash :: spell more

/-- What a segment means; an empty one and `.` mean nothing. -/
def Component.ofSegment? (s : Bytes) : Option Component :=
  if s = [] ∨ s = [dot] then none
  else if s = [dot, dot] then some .parent
  else some (.name s)

/-- A component as it is spelled. -/
def Component.segment : Component → Bytes
  | .root => [slash]
  | .here => [dot]
  | .parent => [dot, dot]
  | .name n => n

/-- The name in a component, if it is one. -/
def Component.name? : Component → Option Name
  | .name n => some n
  | _ => none

namespace Path

instance : Ord Path := ⟨fun p q => compare p.bytes q.bytes⟩

instance : Std.TransOrd Path where
  eq_swap {p q} := Std.OrientedOrd.eq_swap (a := p.bytes) (b := q.bytes)
  isLE_trans {p q r} hpq hqr :=
    Std.TransOrd.isLE_trans (a := p.bytes) (b := q.bytes) (c := r.bytes) hpq hqr

instance : Std.LawfulEqOrd Path where
  compare_self {p} := Std.ReflOrd.compare_self (a := p.bytes)
  eq_of_compare {p q} h := by
    cases p
    cases q
    exact congrArg Path.mk (Std.LawfulEqOrd.eq_of_compare h)

/-- The path `/`. -/
def rootDirectory : Path := ⟨[slash]⟩

/-- The path that a text spells. -/
def ofString (text : String) : Path := ⟨Utf8.encode text⟩

/-- The text of a path, if its bytes are UTF-8. -/
def text? (p : Path) : Option String := Utf8.decode? p.bytes

/-- The text of a path for messages: bytes that are not UTF-8 show as U+FFFD. -/
def display (p : Path) : String := Utf8.decodeLossy p.bytes

/-- A path is absolute if its spelling starts with a separator. -/
def isAbsolute (p : Path) : Bool := p.bytes.head? == some slash

/-- A relative path can start with `.`, which counts as a component there. -/
def startsHere (p : Path) : Bool := (segments p.bytes).head? == some [dot]

/-- The components of a path. -/
def components (p : Path) : List Component :=
  let body := (segments p.bytes).filterMap Component.ofSegment?
  if p.isAbsolute then .root :: body
  else if p.startsHere then .here :: body
  else body

/-- The relative path through the given names. -/
def ofNames (names : List Name) : Path := ⟨spell names⟩

/-- The absolute path through the given names. -/
def absolute (names : List Name) : Path := ⟨slash :: spell names⟩

/-- The relative path with the given components. -/
def ofComponents (components : List Component) : Path := ⟨spell (components.map Component.segment)⟩

/-- Puts `q` behind `p`. An absolute `q` replaces `p`; else a separator stands between them unless
`p` is empty or ends in one. -/
def join (p q : Path) : Path :=
  if q.isAbsolute then q
  else if p.bytes = [] ∨ p.bytes.getLast? = some slash then ⟨p.bytes ++ q.bytes⟩
  else ⟨p.bytes ++ slash :: q.bytes⟩

/-- The name that a path ends in; `/`, `.`, `..` and the empty path end in none. -/
def fileName? (p : Path) : Option Name := p.components.getLast? >>= Component.name?

/-- Drops the segments at the end of a spelling that mean nothing. The segments come last first;
with `keepsFirst`, the first one of the spelling counts whatever it is. -/
def dropMeaningless (keepsFirst : Bool) : List Bytes → List Bytes
  | [] => []
  | s :: more =>
    if keepsFirst && more.isEmpty then [s]
    else if (Component.ofSegment? s).isNone then dropMeaningless keepsFirst more
    else s :: more

/-- The path without its last component, spelled as before up to there. `/` and the empty path have
none. -/
def parent? (p : Path) : Option Path :=
  let body := if p.isAbsolute then (segments p.bytes).tail else segments p.bytes
  let keepsFirst := !p.isAbsolute && p.startsHere
  match dropMeaningless keepsFirst body.reverse with
  | [] => none
  | _ :: above =>
    let above := spell (dropMeaningless keepsFirst above).reverse
    some (if p.isAbsolute then ⟨slash :: above⟩ else ⟨above⟩)

/-- The path, its parent, and so on, at most `limit` parents. -/
def ancestorsUpTo : Nat → Path → List Path
  | 0, p => [p]
  | limit + 1, p =>
    match p.parent? with
    | none => [p]
    | some q => p :: ancestorsUpTo limit q

/-- The path, its parent, the parent of that, up to a path without one. A parent has a shorter
spelling, so the length of the spelling is limit enough. -/
def ancestors (p : Path) : List Path := ancestorsUpTo p.bytes.length p

/-- Whether `base` is `p` or a path above it, component by component. -/
def startsWith (p base : Path) : Bool := base.components.isPrefixOf p.components

/-- What is left of `p` below `base`, if `p` starts with `base`. -/
def stripPrefix? (p base : Path) : Option Path :=
  if p.startsWith base then some (ofComponents (p.components.drop base.components.length)) else none

end Path
end TrustedRoot
