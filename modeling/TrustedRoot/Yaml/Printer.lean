import TrustedRoot.Yaml.Schema

/-!
Mappings written as block YAML. A string is written plain where it reads back as itself, else
between quotes; one with line feeds becomes a literal block.
-/

namespace TrustedRoot.Yaml.Printer

/-- What is written so far, last character first, and the state of the current line. -/
structure Page where
  text : List Char
  column : Nat
  /-- Whether the last thing written was white space. -/
  spaced : Bool
  /-- Whether only indentation stands on the line. -/
  indented : Bool

namespace Page

/-- Nothing. -/
def empty : Page := ⟨[], 0, true, true⟩

/-- Writes a character that ends no line. -/
def put (page : Page) (c : Char) : Page :=
  { page with text := c :: page.text, column := page.column + 1 }

/-- Writes characters that end no line. -/
def puts (page : Page) (chars : List Char) : Page := chars.foldl put page

/-- Writes a character that ends the line. -/
def newline (page : Page) (c : Char) : Page := { page with text := c :: page.text, column := 0 }

/-- Goes to a column: on this line if there is nothing but indentation before it, else on the next.
-/
def indent (page : Page) (column : Nat) : Page :=
  let fresh := page.indented && (page.column < column || (page.column = column && page.spaced))
  let page := if fresh then page else page.newline '\n'
  let page := page.puts (List.replicate (column - page.column) ' ')
  { page with spaced := true, indented := true }

/-- Writes an indicator, apart from what stands before it if `apart`. -/
def indicator (page : Page) (chars : List Char) (apart : Bool) (keepsIndent : Bool) : Page :=
  let page := if apart && !page.spaced then page.put ' ' else page
  let page := page.puts chars
  { page with spaced := false, indented := page.indented && keepsIndent }

end Page

/-- Which styles can hold a string. -/
structure Analysis where
  plain : Bool
  singleQuoted : Bool
  block : Bool
  multiline : Bool
deriving DecidableEq, Repr

/-- Characters that are written as they are. -/
def isPrintable (c : Char) : Bool :=
  let n := c.toNat
  n = 0x0A || (0x20 ≤ n && n ≤ 0x7E) || (0xA0 ≤ n && n ≤ 0xD7FF)
    || (0xE000 ≤ n && n ≤ 0xFFFD && n ≠ 0xFEFF) || 0x10000 ≤ n

/-- Whether a character can start no plain scalar in a block, given the one after it. -/
def barsStart (c : Char) (next : Option Char) : Bool :=
  "#,[]\x7b\x7d&*!|>'\"%@`".toList.contains c
    || ((c = '?' || c = ':' || c = '-') && endsWord next)

/-- Whether a character inside a plain scalar of a block would end it, given its neighbours. -/
def barsInside (before c : Char) (next : Option Char) : Bool :=
  (c = ':' && endsWord next) || (c = '#' && endsWord (some before))

/-- Whether two neighbours in a list satisfy a relation. -/
def anyPair (r : Char → Char → Bool) : List Char → Bool
  | a :: b :: rest => r a b || anyPair r (b :: rest)
  | _ => false

/-- Whether a character inside a list would end a plain scalar. -/
def anyBarred : List Char → Bool
  | a :: b :: rest => barsInside a b rest.head? || anyBarred (b :: rest)
  | _ => false

/-- Which styles can hold a string of a block. -/
def analyze (text : List Char) : Analysis :=
  match text with
  | [] => ⟨true, true, false, false⟩
  | c :: rest =>
    let last := (c :: rest).getLast?
    let isSpace (c : Char) : Bool := c = ' '
    let special := !text.all isPrintable
    let multiline := text.any isBreak
    let spaceBreak := anyPair (fun a b => isSpace a && isBreak b) text
    let breakSpace := anyPair (fun a b => isBreak a && isSpace b) text
    let marker := text.take 3 = ['-', '-', '-'] || text.take 3 = ['.', '.', '.']
    let edge := isSpace c || isBreak c || last.any isSpace || last.any isBreak
    let held := !spaceBreak && !special
    { plain := held && !breakSpace && !edge && !multiline && !marker
        && !barsStart c rest.head? && !anyBarred text
      singleQuoted := held && !breakSpace
      block := held && !last.any isSpace
      multiline }

/-- Hexadecimal digits in upper case. -/
def hexDigits (width n : Nat) : List Char :=
  let digits := (Nat.toDigits 16 n).map Char.toUpper
  List.replicate (width - digits.length) '0' ++ digits

/-- A character between double quotes. -/
def escape (c : Char) : List Char :=
  if isPrintable c && !isBreak c && c ≠ '"' && c ≠ '\\' then [c]
  else '\\' :: match c with
    | '\x00' => ['0']
    | '\x07' => ['a']
    | '\x08' => ['b']
    | '\t' => ['t']
    | '\n' => ['n']
    | '\x0b' => ['v']
    | '\x0c' => ['f']
    | '\r' => ['r']
    | '\x1b' => ['e']
    | '"' => ['"']
    | '\\' => ['\\']
    | '\x85' => ['N']
    | '\xa0' => ['_']
    | '\u2028' => ['L']
    | '\u2029' => ['P']
    | c =>
      let n := c.toNat
      if n ≤ 0xFF then 'x' :: hexDigits 2 n
      else if n ≤ 0xFFFF then 'u' :: hexDigits 4 n
      else 'U' :: hexDigits 8 n

/-- The style that a string asks for: quotes if it would read back as something else, a literal
block if it has several lines. -/
def wanted (text : String) : Style :=
  if text.toList.contains '\n' then .literal
  else match Schema.plain text with
    | .string _ => if Schema.isPaddedDigits text.toList then .singleQuoted else .plain
    | _ => .singleQuoted

/-- The style in which a string is written, as a key on one line or not. -/
def style (isKey : Bool) (text : String) : Style :=
  let can := analyze text.toList
  let style := if isKey && can.multiline then .doubleQuoted else wanted text
  let style := if style = .plain && !can.plain then .singleQuoted else style
  let style := if style = .singleQuoted && !can.singleQuoted then .doubleQuoted else style
  if style = .literal && (!can.block || isKey) then .doubleQuoted else style

/-- Writes the lines of a single quoted scalar. `broken` tells whether a line has just ended. -/
def putSingle (column : Nat) (page : Page) (broken : Bool) : List Char → Page
  | [] => if broken then page.indent column else page
  | c :: rest =>
    if isBreak c then
      let page := if !broken && c = '\n' then page.newline '\n' else page
      putSingle column { page.newline c with indented := true } true rest
    else
      let page := if broken && c ≠ ' ' then page.indent column else page
      let page := if c = '\'' then page.put '\'' else page
      let page := page.put c
      putSingle column (if c = ' ' then page else { page with indented := false })
        (broken && c = ' ') rest

/-- Writes the lines of a literal block. `broken` tells whether a line has just ended. -/
def putLiteral (column : Nat) (page : Page) (broken : Bool) : List Char → Page
  | [] => page
  | c :: rest =>
    if isBreak c then putLiteral column { page.newline c with indented := true } true rest
    else
      let page := if broken then page.indent column else page
      putLiteral column { page.put c with indented := false } false rest

/-- The indicators of a literal block: its indentation if that cannot be seen, and what happens to
the breaks at its end. -/
def literalHints (text : List Char) : List Char :=
  let indentation := if text.head?.any fun c => c = ' ' || isBreak c then ['2'] else []
  let chomping := match text.reverse with
    | [] => ['-']
    | c :: rest =>
      if !isBreak c then ['-']
      else match rest with
        | [] => ['+']
        | d :: _ => if isBreak d then ['+'] else []
  indentation ++ chomping

/-- Writes a scalar in a collection with the given column. -/
def putScalar (page : Page) (column : Nat) (style : Style) (text : List Char) : Page :=
  match style with
  | .literal | .folded =>
    let page := page.indicator ('|' :: literalHints text) true false
    putLiteral (column + 2) { page.newline '\n' with spaced := true, indented := true } true text
  | .singleQuoted =>
    let page := page.indicator ['\''] true false
    (putSingle (column + 2) page false text).indicator ['\''] false false
  | .doubleQuoted =>
    let page := page.indicator ['"'] true false
    (page.puts (text.flatMap escape)).indicator ['"'] false false
  | .plain =>
    let page := if !page.spaced && !text.isEmpty then page.put ' ' else page
    { page.puts text with spaced := false, indented := false }

/-- Whether a string can be written as a key on one line. -/
def isSimpleKey (text : String) : Bool :=
  !(analyze text.toList).multiline && text.utf8ByteSize ≤ 128

/-- A value that a mapping can hold. -/
inductive Value
  | null
  | string (text : String)
  | mapping (entries : List (String × Value))

mutual

/-- Writes a value in a collection with the given column. -/
def Value.put (page : Page) (column : Nat) : Value → Page
  | .null => putScalar page column .plain "null".toList
  | .string text => putScalar page column (style false text) text.toList
  | .mapping entries => putEntries page (column + 2) entries

/-- Writes the entries of a mapping with the given column. -/
def putEntries (page : Page) (column : Nat) : List (String × Value) → Page
  | [] => page
  | (key, value) :: rest =>
    let page := page.indent column
    let page :=
      if isSimpleKey key then
        (putScalar page column (style true key) key.toList).indicator [':'] false false
      else
        let page := page.indicator ['?'] true true
        let page := putScalar page column (style false key) key.toList
        (page.indent column).indicator [':'] true true
    putEntries (value.put page column) column rest

end

/-- A mapping as a document. -/
def document (entries : List (String × Value)) : String :=
  String.ofList ((putEntries .empty 0 entries).indent 0).text.reverse

end TrustedRoot.Yaml.Printer
