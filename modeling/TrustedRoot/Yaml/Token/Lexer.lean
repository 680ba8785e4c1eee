import TrustedRoot.Yaml.Token.Tag

/-!
The tokens of a text. Indentation becomes tokens of its own, and a value indicator can turn what
stands before it on the line into a key. While a token may still become a key it is held back, so a
fault further on the line hides it.
-/

namespace TrustedRoot.Yaml

/-- A token that may still become a key. -/
structure KeySpot where
  /-- The number of the token. -/
  token : Nat
  mark : Mark
  /-- Whether it has to become one, since it stands where the block mapping around it goes on. -/
  required : Bool
deriving DecidableEq, Repr

/-- A text that is being cut into tokens. -/
structure Lexer where
  cursor : Cursor
  /-- The byte from which on nothing of the text can be read, if there is one. -/
  horizon : Option Nat
  /-- The column of the block collection around the cursor, -1 outside all. -/
  indent : Int
  /-- The columns of the collections around that one, innermost first. -/
  outer : List Int
  /-- Whether a key may start at the cursor. -/
  keyAllowed : Bool
  /-- The possible key of every flow collection around the cursor and of the block context,
  innermost first. -/
  keys : List (Option KeySpot)
  /-- Tokens that are held back. -/
  queue : List Token
  /-- How many tokens were given away. -/
  taken : Nat
deriving Repr

namespace Lexer

/-- How many bytes of a text are looked at together. -/
def blockSize : Nat := 16384

/-- The first byte of the first block with a character that may not stand in a text, if there is
one. No character is split between two blocks. `first` is where the current block starts, `index`
the position of the list. -/
def spoiledBlock? (first index : Nat) : List Char → Option Nat
  | [] => none
  | c :: rest =>
    let first := if first + blockSize < index + c.utf8Size then index else first
    if isAllowed c then spoiledBlock? first (index + c.utf8Size) rest else some first

/-- A text before its first character. -/
def start (text : List Char) : Lexer where
  cursor := ⟨text, .start⟩
  horizon := spoiledBlock? 0 0 text
  indent := -1
  outer := []
  keyAllowed := true
  keys := [none]
  queue := [⟨.streamStart, .start, .start⟩]
  taken := 0

/-- Whether the cursor stands in a flow collection. -/
def inFlow (lexer : Lexer) : Bool := 1 < lexer.keys.length

/-- The position of the cursor. -/
def mark (lexer : Lexer) : Mark := lexer.cursor.mark

/-- Adds a token at the end. -/
def emit (lexer : Lexer) (token : Token) : Lexer := { lexer with queue := lexer.queue ++ [token] }

/-- Adds a token in front of the token with the given number, which is still held back. -/
def emitBefore (lexer : Lexer) (number : Nat) (token : Token) : Lexer :=
  let place := number - lexer.taken
  { lexer with queue := lexer.queue.take place ++ token :: lexer.queue.drop place }

/-- The number of the token that comes next. -/
def nextNumber (lexer : Lexer) : Nat := lexer.taken + lexer.queue.length

/-- The fault of a line that had to hold a key and does not. -/
def missingColon {α : Type} (mark : Mark) : Except Fault α := malformed "a colon is missing" mark

/-- Whether a spot can no longer become a key: keys end on the line they start on, within 1024
bytes. -/
def isStale (mark : Mark) (spot : KeySpot) : Bool :=
  spot.mark.line < mark.line || spot.mark.index + 1024 < mark.index

/-- Forgets the spots that can no longer become keys. -/
def dropStale (lexer : Lexer) : Except Fault Lexer := do
  let keys ← lexer.keys.mapM fun spot =>
    match spot with
    | none => .ok none
    | some spot =>
      if !isStale lexer.mark spot then .ok (some spot)
      else if spot.required then missingColon lexer.mark
      else .ok none
  .ok { lexer with keys }

/-- Forgets the innermost spot. -/
def dropKey (lexer : Lexer) : Except Fault Lexer :=
  match lexer.keys with
  | some spot :: rest =>
    if spot.required then missingColon lexer.mark else .ok { lexer with keys := none :: rest }
  | _ => .ok lexer

/-- Remembers that the next token may become a key. -/
def saveKey (lexer : Lexer) : Except Fault Lexer :=
  if !lexer.keyAllowed then .ok lexer
  else do
    let required := !lexer.inFlow && lexer.indent = lexer.mark.column
    let spot : KeySpot := ⟨lexer.nextNumber, lexer.mark, required⟩
    let lexer ← lexer.dropKey
    .ok { lexer with keys := some spot :: lexer.keys.tail }

/-- Opens a block collection at a column if it lies further right than the one around it. -/
def openBlock (lexer : Lexer) (column : Nat) (number : Option Nat) (kind : TokenKind)
    (mark : Mark) : Lexer :=
  if lexer.inFlow || column ≤ lexer.indent then lexer
  else
    let token : Token := ⟨kind, mark, mark⟩
    let lexer := { lexer with indent := column, outer := lexer.indent :: lexer.outer }
    match number with
    | some number => lexer.emitBefore number token
    | none => lexer.emit token

/-- Closes the block collections that lie further right than a column. -/
def closeBlocks (lexer : Lexer) (column : Int) : Lexer :=
  if lexer.inFlow then lexer
  else
    let columns := lexer.indent :: lexer.outer
    let closed := columns.takeWhile (column < ·)
    let left := columns.dropWhile (column < ·)
    { lexer with
      indent := left.headD (-1)
      outer := left.tail
      queue := lexer.queue ++ closed.map fun _ => ⟨.blockEnd, lexer.mark, lexer.mark⟩ }

/-- Skips white space, comments and breaks in front of a token, at most `limit` steps. A byte order
mark may start a line, which moves what follows to the second column. -/
def skipBlank (lexer : Lexer) : Nat → Lexer
  | 0 => lexer
  | limit + 1 =>
    let cursor := lexer.cursor
    let cursor :=
      if cursor.mark.column = 0 && cursor.next = some '\uFEFF' then cursor.right else cursor
    let tabs := lexer.inFlow || !lexer.keyAllowed
    let cursor := (cursor.span fun c => c = ' ' || (tabs && c = '\t')).2
    let cursor :=
      if cursor.next = some '#' then (cursor.span fun c => !isBreak c).2 else cursor
    if cursor.next.any isBreak then
      skipBlank { lexer with
        cursor := cursor.pastBreak
        keyAllowed := lexer.keyAllowed || !lexer.inFlow } limit
    else { lexer with cursor }

/-- The token of `width` characters at the cursor. -/
def fixed (lexer : Lexer) (kind : TokenKind) (width : Nat) : Lexer :=
  let after := lexer.cursor.forward width
  { lexer.emit ⟨kind, lexer.mark, after.mark⟩ with cursor := after }

/-- The end of the text. -/
def atEnd (lexer : Lexer) : Except Fault Lexer := do
  let mark := lexer.mark
  let mark := if mark.column = 0 then mark else mark.down 0
  let lexer := { lexer with cursor := { lexer.cursor with mark } }.closeBlocks (-1)
  let lexer ← lexer.dropKey
  .ok { lexer.emit ⟨.streamEnd, mark, mark⟩ with keyAllowed := false }

/-- A token that ends every block: a directive or a document marker. -/
def atMargin (lexer : Lexer) : Except Fault Lexer := do
  let lexer ← (lexer.closeBlocks (-1)).dropKey
  .ok { lexer with keyAllowed := false }

/-- A token that may become a key and behind which no key may start. -/
def keyLike (lexer : Lexer) (scan : Cursor → Except Fault (Token × Cursor)) :
    Except Fault Lexer := do
  let lexer ← lexer.saveKey
  let (token, cursor) ← scan lexer.cursor
  .ok { lexer.emit token with cursor, keyAllowed := false }

/-- A block scalar. -/
def blockScalar (lexer : Lexer) (literal : Bool) : Except Fault Lexer := do
  let lexer ← lexer.dropKey
  let (token, cursor) ← Scalar.block literal lexer.indent lexer.cursor
  .ok { lexer.emit token with cursor, keyAllowed := true }

/-- A plain scalar; a key may start behind it if its line ended. -/
def plainScalar (lexer : Lexer) : Except Fault Lexer := do
  let lexer ← lexer.saveKey
  let (token, broken, cursor) ← Scalar.plain lexer.inFlow (lexer.indent + 1) lexer.cursor
  .ok { lexer.emit token with cursor, keyAllowed := broken }

/-- The start of a flow collection. -/
def openFlow (lexer : Lexer) (kind : TokenKind) : Except Fault Lexer := do
  let lexer ← lexer.saveKey
  .ok { lexer.fixed kind 1 with keys := none :: lexer.keys, keyAllowed := true }

/-- The end of a flow collection. -/
def closeFlow (lexer : Lexer) (kind : TokenKind) : Except Fault Lexer := do
  let lexer ← lexer.dropKey
  let keys := if lexer.inFlow then lexer.keys.tail else lexer.keys
  .ok { lexer.fixed kind 1 with keys, keyAllowed := false }

/-- The comma of a flow collection. -/
def flowEntry (lexer : Lexer) : Except Fault Lexer := do
  let lexer ← lexer.dropKey
  .ok { lexer.fixed .flowEntry 1 with keyAllowed := true }

/-- An indicator that may open a block collection, which needs a place where a key may start. -/
def blockIndicator (lexer : Lexer) (opens kind : TokenKind) (keyAllowed : Bool) :
    Except Fault Lexer := do
  let mark := lexer.mark
  if !lexer.inFlow && !lexer.keyAllowed then malformed "a block collection cannot start here" mark
  else
    let lexer ← (lexer.openBlock mark.column none opens mark).dropKey
    .ok { lexer.fixed kind 1 with keyAllowed }

/-- The indicator of a value. If a key is possible it turns it into one; if not, the key is empty.
-/
def valueIndicator (lexer : Lexer) : Except Fault Lexer := do
  match lexer.keys with
  | some spot :: rest =>
    let lexer := lexer.emitBefore spot.token ⟨.key, spot.mark, spot.mark⟩
    let lexer := lexer.openBlock spot.mark.column (some spot.token) .blockMappingStart spot.mark
    .ok { lexer.fixed .value 1 with keys := none :: rest, keyAllowed := false }
  | _ =>
    let mark := lexer.mark
    if !lexer.inFlow && !lexer.keyAllowed then malformed "a mapping value cannot stand here" mark
    else
      let lexer := lexer.openBlock mark.column none .blockMappingStart mark
      .ok { lexer.fixed .value 1 with keyAllowed := !lexer.inFlow }

/-- Characters that start no plain scalar. -/
def isIndicator (c : Char) : Bool := "-?:,[]\x7b\x7d#&*!|>'\"%@`".toList.contains c

/-- Whether a plain scalar starts with the character `c`, given the one after it. -/
def startsPlain (inFlow : Bool) (c : Char) (next : Option Char) : Bool :=
  (!isGap c && !isBreak c && !isIndicator c)
    || (c = '-' && !next.any isGap)
    || (!inFlow && (c = '?' || c = ':') && !endsWord next)

/-- The token at the cursor, behind white space. -/
def dispatch (lexer : Lexer) : Except Fault Lexer := do
  let next := lexer.cursor.ahead 1
  let atMarker := lexer.mark.column = 0 && startsMarker lexer.cursor.rest
  match lexer.cursor.next with
  | none => lexer.atEnd
  | some c =>
    if lexer.mark.column = 0 && c = '%' then
      let lexer ← lexer.atMargin
      let (token, cursor) ← Directive.scan lexer.cursor
      .ok { lexer.emit token with cursor }
    else if atMarker then
      .ok ((← lexer.atMargin).fixed (if c = '-' then .documentStart else .documentEnd) 3)
    else if c = '[' then lexer.openFlow .flowSequenceStart
    else if c = '\x7b' then lexer.openFlow .flowMappingStart
    else if c = ']' then lexer.closeFlow .flowSequenceEnd
    else if c = '\x7d' then lexer.closeFlow .flowMappingEnd
    else if c = ',' then lexer.flowEntry
    else if c = '-' && endsWord next then
      if lexer.inFlow then
        .ok { (← lexer.dropKey).fixed .blockEntry 1 with keyAllowed := true }
      else lexer.blockIndicator .blockSequenceStart .blockEntry true
    else if c = '?' && (lexer.inFlow || endsWord next) then
      lexer.blockIndicator .blockMappingStart .key (!lexer.inFlow)
    else if c = ':' && (lexer.inFlow || endsWord next) then lexer.valueIndicator
    else if c = '*' then lexer.keyLike (Anchor.scan true)
    else if c = '&' then lexer.keyLike (Anchor.scan false)
    else if c = '!' then lexer.keyLike (Tag.scan lexer.inFlow)
    else if c = '|' && !lexer.inFlow then lexer.blockScalar true
    else if c = '>' && !lexer.inFlow then lexer.blockScalar false
    else if c = '\'' then lexer.keyLike (Scalar.quoted true)
    else if c = '"' then lexer.keyLike (Scalar.quoted false)
    else if startsPlain lexer.inFlow c next then lexer.plainScalar
    else malformed "no token starts with this character" lexer.mark

/-- How many bytes behind a token are looked at. -/
def sight : Nat := 4

/-- Reads one token from the text, and the tokens that its indentation brings. -/
def fetch (lexer : Lexer) : Except Fault Lexer := do
  let lexer ← (lexer.skipBlank (lexer.cursor.rest.length + 1)).dropStale
  let lexer ← (lexer.closeBlocks lexer.mark.column).dispatch
  if lexer.horizon.any (· < lexer.mark.index + sight) then
    malformed "a control character is not allowed" lexer.mark
  else .ok lexer

/-- Gives away the tokens one by one, at most `limit` steps: a step reads a token if none is there
or the first may still become a key, and gives the first away otherwise. -/
def run (lexer : Lexer) : Nat → List Token × Option Fault
  | 0 => ([], none)
  | limit + 1 =>
    let read (lexer : Lexer) : List Token × Option Fault :=
      match lexer.fetch with
      | .error fault => ([], some fault)
      | .ok lexer => run lexer limit
    match lexer.queue with
    | [] => read lexer
    | token :: queue =>
      match lexer.dropStale with
      | .error fault => ([], some fault)
      | .ok lexer =>
        if lexer.keys.any fun spot => spot.any (·.token = lexer.taken) then read lexer
        else if token.kind = .streamEnd then ([token], none)
        else
          let (tokens, fault) := run { lexer with queue, taken := lexer.taken + 1 } limit
          (token :: tokens, fault)

end Lexer

/-- The tokens of a text up to its first fault, if there is one. A character that may not stand in a
text at all hides the block in which it stands and all behind. Every step of the lexer takes a
character or a token, and a character brings at most four tokens, so the steps suffice. -/
def Token.scan (text : List Char) : List Token × Option Fault :=
  (Lexer.start text).run (8 * text.length + 32)

end TrustedRoot.Yaml
