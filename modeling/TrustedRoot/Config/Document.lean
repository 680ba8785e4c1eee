import TrustedRoot.Config.Basic
import TrustedRoot.Yaml.Document

/-!
Configurations as YAML documents: a mapping with the fields `default_root` and `roots`. A document
is read node by node, so that the first thing that is wrong is the one reported.
-/

namespace TrustedRoot.Config

open Yaml

/-- The fields of a configuration. -/
def fieldNames : List String := ["default_root", "roots"]

/-- Reads the string at a place, or nothing where null stands. What contradicts the tag of null is
not this value's fault but that of the whole, which starts at the mark of the site. -/
def readName (document : Document) (place : Nat) (site : Site) : Except Fault (Option String) := do
  let value : Except Fault (Option String) :=
    (document.string place site.way "a string").map fun (text, _) => some text
  match (← document.at? (← document.follow place)).1 with
  | .scalar scalar =>
    if scalar.style ≠ .plain then value
    else if Schema.isTaggedNull scalar then
      if Schema.isNullWord scalar.text then .ok none
      else .error (.wrongValue scalar.text "null" ⟨"", site.mark⟩)
    else if scalar.tag.isSome then value
    else if scalar.text.isEmpty || Schema.isNullWord scalar.text then .ok none
    else value
  | _ => value

/-- Reads the entries of a mapping of names to paths from a place on, at most `limit` of them. Gives
the place behind the mapping. -/
def readEntries (document : Document) (way : String) (place : Nat)
    (roots : Std.ExtTreeMap String Path) :
    Nat → Except Fault (Std.ExtTreeMap String Path × Nat)
  | 0 => .ok (roots, place)
  | limit + 1 => do
    match (← document.at? place).1 with
    | .mappingEnd => .ok (roots, place + 1)
    | _ =>
      let (name, _) ← document.string place way "a string"
      let (path, _) ← document.string (place + 1) (document.wayBelow way place) "path string"
      readEntries document way (place + 2) (roots.insert name (.ofString path)) limit

/-- Reads the mapping of names to paths at a place. Gives the place behind it. -/
def readRoots (document : Document) (place : Nat) (way : String) :
    Except Fault (Std.ExtTreeMap String Path × Nat) := do
  let target ← document.follow place
  let (node, mark) ← document.at? target
  let (roots, after) ← match node with
    | .mapping => readEntries document way (target + 1) ∅ document.nodes.length
    | node =>
      if Document.isBlank node then .ok (∅, target + 1)
      else Document.wrongType node "a map" ⟨way, mark⟩
  .ok (roots, if target = place then after else place + 1)

/-- The fields that were read. -/
structure Fields where
  defaultRoot : Option (Option String)
  roots : Option (Std.ExtTreeMap String Path)

/-- Reads the fields of a configuration from a place on, at most `limit` of them. `mark` is where
the configuration starts. -/
def readFields (document : Document) (mark : Mark) (place : Nat) (fields : Fields) :
    Nat → Except Fault Fields
  | 0 => .ok fields
  | limit + 1 => do
    match (← document.at? place).1 with
    | .mappingEnd => .ok fields
    | _ =>
      let (name, nameMark) ← document.string place "" "field identifier"
      let way := document.wayBelow "" place
      if name = "default_root" then
        if fields.defaultRoot.isSome then .error (.duplicateField name ⟨"", mark⟩)
        else
          let value ← readName document (place + 1) ⟨way, mark⟩
          readFields document mark (place + 2) { fields with defaultRoot := some value } limit
      else if name = "roots" then
        if fields.roots.isSome then .error (.duplicateField name ⟨"", mark⟩)
        else
          let (roots, after) ← readRoots document (place + 1) way
          readFields document mark after { fields with roots := some roots } limit
      else .error (.unknownField name fieldNames ⟨"", nameMark⟩)

/-- Reads the configuration that a document holds. -/
def ofDocument (document : Document) : Except Fault Config := do
  let (node, mark) ← document.at? 0
  match node with
  | .mapping =>
    let fields ← readFields document mark 1 ⟨none, none⟩ document.nodes.length
    .ok ⟨fields.defaultRoot.getD none, fields.roots.getD ∅, none⟩
  | node =>
    if Document.isBlank node then .ok empty
    else Document.wrongType node "struct Config" ⟨"", mark⟩

/-- The configuration that a text holds. What is wrong in front of a fault of the text is reported
first, a second document last. -/
def parse (text : String) : Except Fault Config := do
  let (document, alone) := Document.ofText text
  let config ← ofDocument document
  match document.fault with
  | some fault => .error fault
  | none => if alone then .ok config else .error .manyDocuments

end TrustedRoot.Config
