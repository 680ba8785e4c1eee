import TrustedRoot.Text.Utf8
import TrustedRoot.Yaml.Fault

/-!
The tokens of YAML and the classes of its characters.
-/

namespace TrustedRoot.Yaml

/-- How a scalar is written. -/
inductive Style
  | plain
  | singleQuoted
  | doubleQuoted
  | literal
  | folded
deriving DecidableEq, Repr

/-- What a token is. -/
inductive TokenKind
  | streamStart
  | streamEnd
  | versionDirective (major minor : Nat)
  | tagDirective (handle expansion : Bytes)
  | documentStart
  | documentEnd
  | blockSequenceStart
  | blockMappingStart
  | blockEnd
  | flowSequenceStart
  | flowSequenceEnd
  | flowMappingStart
  | flowMappingEnd
  | blockEntry
  | flowEntry
  | key
  | value
  | alias (name : String)
  | anchor (name : String)
  | tag (handle suffix : Bytes)
  | scalar (text : String) (style : Style)
deriving DecidableEq, Repr

/-- A token and where it stands. -/
structure Token where
  kind : TokenKind
  start : Mark
  stop : Mark
deriving DecidableEq, Repr

/-- A text from some position on. -/
structure Cursor where
  rest : List Char
  mark : Mark
deriving DecidableEq, Repr

/-- The position behind a character that ends no line. -/
def Mark.right (mark : Mark) (c : Char) : Mark :=
  ⟨mark.index + c.utf8Size, mark.line, mark.column + 1⟩

/-- The start of the next line, after a break of `width` bytes. -/
def Mark.down (mark : Mark) (width : Nat) : Mark := ⟨mark.index + width, mark.line + 1, 0⟩

/-- Characters that may stand in a text at all. -/
def isAllowed (c : Char) : Bool :=
  let n := c.toNat
  n = 0x09 || n = 0x0A || n = 0x0D || (0x20 ≤ n && n ≤ 0x7E) || n = 0x85
    || (0xA0 ≤ n && n ≤ 0xD7FF) || (0xE000 ≤ n && n ≤ 0xFFFD) || 0x10000 ≤ n

/-- Characters that end a line. -/
def isBreak (c : Char) : Bool :=
  c = '\n' || c = '\r' || c = '\x85' || c = '\u2028' || c = '\u2029'

/-- Spaces and tabs. -/
def isGap (c : Char) : Bool := c = ' ' || c = '\t'

/-- Whether the line ends before the given next character. -/
def endsLine (next : Option Char) : Bool := next.all isBreak

/-- Whether a word ends before the given next character. -/
def endsWord (next : Option Char) : Bool := next.all fun c => isGap c || isBreak c

/-- Characters of names. -/
def isWordChar (c : Char) : Bool := c.isAlphanum || c = '_' || c = '-'

/-- What a break stands for in a scalar. The separators of Unicode stand for themselves. -/
def breakText (c : Char) : Char := if c = '\u2028' || c = '\u2029' then c else '\n'

/-- Whether a line that starts with the given text is `---` or `...`, followed by the end of a word.
-/
def startsMarker : List Char → Bool
  | '-' :: '-' :: '-' :: rest | '.' :: '.' :: '.' :: rest => endsWord rest.head?
  | _ => false

namespace Cursor

/-- The cursor behind the next character, which must not be a break. -/
def right (cursor : Cursor) : Cursor :=
  match cursor.rest with
  | [] => cursor
  | c :: rest => ⟨rest, cursor.mark.right c⟩

/-- The cursor `n` characters further. -/
def forward (cursor : Cursor) : Nat → Cursor
  | 0 => cursor
  | n + 1 => cursor.right.forward n

/-- The character at the cursor. -/
def next (cursor : Cursor) : Option Char := cursor.rest.head?

/-- The character `n` further on. -/
def ahead (cursor : Cursor) (n : Nat) : Option Char := cursor.rest[n]?

/-- The longest run of characters of a class, and the cursor behind it. -/
def span (p : Char → Bool) (cursor : Cursor) : List Char × Cursor :=
  let run := cursor.rest.takeWhile p
  (run, cursor.forward run.length)

/-- The cursor behind the break at which it stands. A carriage return and a line feed are one break.
-/
def pastBreak (cursor : Cursor) : Cursor :=
  match cursor.rest with
  | '\r' :: '\n' :: rest => ⟨rest, cursor.mark.down 2⟩
  | c :: rest => ⟨rest, cursor.mark.down c.utf8Size⟩
  | [] => cursor

/-- The cursor behind gaps and a comment. -/
def pastComment (cursor : Cursor) : Cursor :=
  let cursor := (cursor.span isGap).2
  if cursor.next = some '#' then (cursor.span fun c => !isBreak c).2 else cursor

end Cursor

/-- A fault in the text at a position. -/
def malformed {α : Type} (problem : String) (mark : Mark) : Except Fault α :=
  .error (.malformed problem mark)

end TrustedRoot.Yaml
