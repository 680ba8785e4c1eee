import TrustedRoot.Yaml.Event

/-!
What a scalar is: null, a boolean, an integer, a number or a string, by its tag and, if it is plain,
by its text.
-/

namespace TrustedRoot.Yaml.Schema

/-- The texts of null but the empty one. -/
def isNullWord (text : String) : Bool :=
  text = "null" || text = "Null" || text = "NULL" || text = "~"

/-- The boolean that a text spells. -/
def boolean? (text : String) : Option Bool :=
  if text = "true" ∨ text = "True" ∨ text = "TRUE" then some true
  else if text = "false" ∨ text = "False" ∨ text = "FALSE" then some false
  else none

/-- The value of digits of a radix, if there are any and nothing else. -/
def digits? (radix : Nat) (text : List Char) : Option Nat :=
  if text.isEmpty then none
  else text.foldlM (fun value c => do
    let digit ← Scalar.hexValue? c
    if digit < radix then some (value * radix + digit) else none) 0

/-- Whether a text starts with a sign. -/
def isSigned (text : List Char) : Bool := text.head? = some '+' || text.head? = some '-'

/-- A text without one plus in front. -/
def dropPlus : List Char → List Char
  | '+' :: rest => rest
  | text => text

/-- Digits with a zero in front of others, after a sign if there is one. They are a string. -/
def isPaddedDigits (text : List Char) : Bool :=
  match if isSigned text then text.tail else text with
  | '0' :: c :: rest => (c :: rest).all Char.isDigit
  | _ => false

/-- The radix that two characters in front of digits announce, and what follows them. -/
def radix? : List Char → Option (Nat × List Char)
  | '0' :: 'x' :: rest => some (16, rest)
  | '0' :: 'o' :: rest => some (8, rest)
  | '0' :: 'b' :: rest => some (2, rest)
  | _ => none

/-- The integer from zero on that a text spells. -/
def natural? (text : List Char) : Option Nat :=
  let body := dropPlus text
  match radix? body with
  | some (radix, rest) => digits? radix rest
  | none => if isSigned body || isPaddedDigits text then none else digits? 10 body

/-- The integer below zero, or the negative zero, that a text spells. -/
def negative? (text : List Char) : Option Int :=
  match text with
  | '-' :: rest =>
    match radix? rest with
    | some (radix, rest) => (digits? radix rest).map fun n => -(n : Int)
    | none => if isPaddedDigits text then none else (digits? 10 rest).map fun n => -(n : Int)
  | _ => none

/-- The integer that a text spells, in 64 bits if they hold it, else in 128. -/
def integer? (text : List Char) : Option Found :=
  match natural? text, negative? text with
  | some n, _ =>
    if n < Nat.pow 2 64 then some (.integer n)
    else if n < Nat.pow 2 128 then some (.wideInteger n)
    else none
  | none, some n =>
    if -(Nat.pow 2 63 : Int) ≤ n then some (.integer n)
    else if -(Nat.pow 2 127 : Int) ≤ n then some (.wideInteger n)
    else none
  | none, none => none

/-- The exponent that a text spells behind the `e` of a number. -/
def exponent? (text : List Char) : Option Int :=
  match text with
  | '+' :: rest => (digits? 10 rest).map fun n => (n : Int)
  | '-' :: rest => (digits? 10 rest).map fun n => -(n : Int)
  | _ => (digits? 10 text).map fun n => (n : Int)

/-- The number that a decimal without a sign spells. -/
def decimal? (negative : Bool) (text : List Char) : Option Binary64 := do
  let whole := text.takeWhile Char.isDigit
  let rest := text.dropWhile Char.isDigit
  let (fraction, rest) := match rest with
    | '.' :: rest => (rest.takeWhile Char.isDigit, rest.dropWhile Char.isDigit)
    | _ => ([], rest)
  let digits ← digits? 10 (whole ++ fraction)
  let exponent ← match rest with
    | [] => some 0
    | c :: rest => if c = 'e' ∨ c = 'E' then exponent? rest else none
  some (.ofDecimal negative digits (exponent - fraction.length))

/-- The number that a text spells. A decimal beyond the range of the format is none. -/
def number? (text : List Char) : Option Binary64 :=
  let body := dropPlus text
  if text.head? = some '+' && isSigned body then none
  else if [".inf", ".Inf", ".INF"].any (·.toList = body) then some (.infinite false)
  else if ["-.inf", "-.Inf", "-.INF"].any (·.toList = text) then some (.infinite true)
  else if [".nan", ".NaN", ".NAN"].any (·.toList = text) then some .nan
  else
    let found := match body with
      | '-' :: rest => decimal? true rest
      | _ => decimal? false body
    match found with
    | some (.finite s m q) => some (.finite s m q)
    | _ => none

/-- What a plain scalar without a tag is. -/
def plain (text : String) : Found :=
  let chars := text.toList
  if text.isEmpty || isNullWord text then .null
  else match boolean? text with
    | some b => .boolean b
    | none =>
      match integer? chars with
      | some found => found
      | none =>
        if isPaddedDigits chars then .string text
        else match number? chars with
          | some x => .number x
          | none => .string text

/-- The expansion of a tag with the standard handle. -/
def standardTag (name : String) : Bytes := Utf8.encode ("tag:yaml.org,2002:" ++ name)

/-- Whether a scalar carries the tag of null. -/
def isTaggedNull (node : ScalarNode) : Bool := node.tag = some (standardTag "null")

/-- What a scalar is, or, if it contradicts its tag, what its tag expects. -/
def classify (node : ScalarNode) : Except String Found :=
  let byText := if node.style = .plain then plain node.text else .string node.text
  let require (found : Option Found) (expected : String) : Except String Found :=
    match found with
    | some found => .ok found
    | none => .error expected
  match node.tag with
  | none => .ok byText
  | some tag =>
    if tag = standardTag "bool" then require ((boolean? node.text).map .boolean) "a boolean"
    else if tag = standardTag "int" then require (integer? node.text.toList) "an integer"
    else if tag = standardTag "float" then
      require ((number? node.text.toList).map .number) "a float"
    else if tag = standardTag "null" then
      require (if isNullWord node.text then some .null else none) "null"
    else if tag.head? = some Tag.bang then .ok byText
    else .ok (.string node.text)

end TrustedRoot.Yaml.Schema
