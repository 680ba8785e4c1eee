import TrustedRoot.Yaml.Schema

/-!
The first document of a text as a list of nodes in the order of the text, with aliases resolved to
the nodes that they stand for. A fault ends the list; what stands before it can still be read.
-/

namespace TrustedRoot.Yaml

/-- A step through a document. An alias holds the number of its anchor. -/
inductive Node
  | alias (anchor : Nat)
  | scalar (node : ScalarNode)
  | sequence
  | sequenceEnd
  | mapping
  | mappingEnd
  /-- A text without a document. -/
  | absent
deriving DecidableEq, Repr

/-- A document. -/
structure Document where
  nodes : List (Node × Mark)
  /-- The number that the name of an anchor has at last. -/
  names : List (String × Nat)
  /-- Where the node of an anchor stands, by the number of the anchor; the first entry counts. -/
  places : List (Nat × Nat)
  /-- The fault that ended the document. -/
  fault : Option Fault

namespace Document

/-- The document before its first node. -/
def empty : Document := ⟨[], [], [], none⟩

/-- Adds a node. -/
def add (document : Document) (node : Node) (mark : Mark) : Document :=
  { document with nodes := document.nodes ++ [(node, mark)] }

/-- Gives the next node the name of an anchor. The number of an anchor is how many names there are
when it is defined, so that a name defined again takes a number which the next new name takes too.
-/
def define (document : Document) : Option String → Document
  | none => document
  | some name =>
    let number := document.names.length
    { document with
      names := (name, number) :: document.names.filter (·.1 ≠ name)
      places := (number, document.nodes.length) :: document.places }

/-- Ends a document by a fault. -/
def stop (document : Document) (fault : Option Fault) : Document := { document with fault }

/-- Collects the first document of a list of events. Gives it with the events behind it, or none of
them if the text has no document. -/
def collect (fault : Option Fault) (document : Document) :
    List Event → Document × Option (List Event)
  | [] => (document.stop fault, some [])
  | ⟨kind, mark⟩ :: rest =>
    match kind with
    | .streamStart | .documentStart => collect fault document rest
    | .streamEnd => (document.add .absent mark, none)
    | .documentEnd => (document, some rest)
    | .alias name =>
      match document.names.find? (·.1 = name) with
      | some (_, number) => collect fault (document.add (.alias number) mark) rest
      | none => (document.stop (some (.unknownAnchor mark)), some rest)
    | .scalar node => collect fault ((document.define node.anchor).add (.scalar node) mark) rest
    | .sequenceStart anchor => collect fault ((document.define anchor).add .sequence mark) rest
    | .sequenceEnd => collect fault (document.add .sequenceEnd mark) rest
    | .mappingStart anchor => collect fault ((document.define anchor).add .mapping mark) rest
    | .mappingEnd => collect fault (document.add .mappingEnd mark) rest

/-- The first document of a text, and whether the text ends behind it. -/
def ofText (text : String) : Document × Bool :=
  let (events, fault) := Event.scan text
  let (document, rest) := collect fault empty events
  let alone := match rest with
    | none => true
    | some (event :: _) => event.kind = .streamEnd
    | some [] => false
  (document, alone)

/-- The node at a place, or the fault that hides it. -/
def at? (document : Document) (place : Nat) : Except Fault (Node × Mark) :=
  match document.nodes[place]? with
  | some found => .ok found
  | none => .error (document.fault.getD (.malformed "the document ends too soon" .start))

/-- The place of the node that is read at a place: its own, or for an alias that of its anchor. -/
def follow (document : Document) (place : Nat) : Except Fault Nat := do
  match (← document.at? place).1 with
  | .alias number => .ok (((document.places.find? (·.1 = number)).map (·.2)).getD place)
  | _ => .ok place

/-- The fault of a node that has the wrong type. -/
def wrongType {α : Type} (node : Node) (expected : String) (site : Site) : Except Fault α :=
  match node with
  | .scalar scalar =>
    match Schema.classify scalar with
    | .ok found => .error (.wrongType found expected site)
    | .error wanted => .error (.wrongValue scalar.text wanted site)
  | .sequence => .error (.wrongType .sequence expected site)
  | .mapping => .error (.wrongType .mapping expected site)
  | _ => .error (.malformed "a value is missing" site.mark)

/-- The text of the scalar at a place and where it stands. Its type does not matter. -/
def string (document : Document) (place : Nat) (way expected : String) :
    Except Fault (String × Mark) := do
  let (node, mark) ← document.at? (← document.follow place)
  match node with
  | .scalar scalar => .ok (scalar.text, mark)
  | node => wrongType node expected ⟨way, mark⟩

/-- Whether a node is a plain scalar without text, which stands for an empty mapping as well. -/
def isBlank : Node → Bool
  | .scalar scalar => scalar.text.isEmpty && scalar.style = .plain
  | .absent => true
  | _ => false

/-- The way to the value of the key at a place. A key that is no scalar itself is not named. -/
def wayBelow (document : Document) (way : String) (key : Nat) : String :=
  let step := match document.at? key with
    | .ok (.scalar scalar, _) => scalar.text
    | _ => "?"
  if way = "" then step else way ++ "." ++ step

end Document
end TrustedRoot.Yaml
