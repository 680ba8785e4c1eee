import TrustedRoot.Number.Binary64
import TrustedRoot.Text.Quoted

/-!
What can be wrong with a YAML document: its text, or the shape of what the text says.
-/

namespace TrustedRoot.Yaml

/-- A position in a text, counted from zero. -/
structure Mark where
  /-- How many bytes stand before it. -/
  index : Nat
  line : Nat
  column : Nat
deriving DecidableEq, Repr, Inhabited

namespace Mark

/-- The start of a text. -/
def start : Mark := ⟨0, 0, 0⟩

/-- The position as the end of a message, with lines and columns counted from one. The start of the
text is not mentioned. -/
def suffix (mark : Mark) : String :=
  if mark.line = 0 ∧ mark.column = 0 then ""
  else s!" at line {mark.line + 1} column {mark.column + 1}"

end Mark

/-- What a document holds in some place, as far as an error has to tell. -/
inductive Found
  | null
  | boolean (value : Bool)
  | integer (value : Int)
  | wideInteger (value : Int)
  | number (value : Binary64)
  | string (value : String)
  | sequence
  | mapping
deriving DecidableEq, Repr

/-- The words for what was found. Integers that need more than 64 bits name the width that holds
them. -/
def Found.description : Found → String
  | .null => "unit value"
  | .boolean value => s!"boolean `{value}`"
  | .integer value => s!"integer `{value}`"
  | .wideInteger value =>
    if value < 0 then s!"integer `{value}` as i128" else s!"integer `{value}` as u128"
  | .number value => s!"floating point `{value.text}`"
  | .string value => s!"string {Quoted.quote value}"
  | .sequence => "sequence"
  | .mapping => "map"

/-- Where in the value that is read an error arose: the way down from the top of the document, empty
for the top itself, and the position in the text. -/
structure Site where
  way : String
  mark : Mark
deriving DecidableEq, Repr

/-- An error text with its site around it. -/
def Site.locate (site : Site) (text : String) : String :=
  (if site.way = "" then text else s!"{site.way}: {text}") ++ site.mark.suffix

/-- An error in a document. -/
inductive Fault
  /-- The text is not YAML. -/
  | malformed (problem : String) (mark : Mark)
  /-- An alias names an anchor that is not defined above it. -/
  | unknownAnchor (mark : Mark)
  /-- The text holds a second document. -/
  | manyDocuments
  /-- A value has another type than the one that is read. -/
  | wrongType (found : Found) (expected : String) (site : Site)
  /-- A scalar contradicts its tag. -/
  | wrongValue (text : String) (expected : String) (site : Site)
  /-- A mapping has a field that it must not have. -/
  | unknownField (name : String) (known : List String) (site : Site)
  /-- A mapping has a field twice. -/
  | duplicateField (name : String) (site : Site)
deriving DecidableEq, Repr

/-- Names in a message, each in back quotes, with `or` between two. -/
def quoteNames : List String → String
  | [] => ""
  | [a] => s!"`{a}`"
  | [a, b] => s!"`{a}` or `{b}`"
  | a :: more => s!"`{a}`, {quoteNames more}"

/-- The message of a fault. -/
def Fault.message : Fault → String
  | .malformed problem mark => problem ++ mark.suffix
  | .unknownAnchor mark => "unknown anchor" ++ mark.suffix
  | .manyDocuments => "more than one document in the text"
  | .wrongType found expected site =>
    site.locate s!"invalid type: {found.description}, expected {expected}"
  | .wrongValue text expected site =>
    site.locate s!"invalid value: string {Quoted.quote text}, expected {expected}"
  | .unknownField name known site =>
    site.locate s!"unknown field `{name}`, expected {quoteNames known}"
  | .duplicateField name site => site.locate s!"duplicate field `{name}`"

end TrustedRoot.Yaml
