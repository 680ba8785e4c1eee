import TrustedRoot.Yaml.Token

/-!
Scalars as tokens: quoted, plain and block scalars with their folding of lines.
-/

namespace TrustedRoot.Yaml.Scalar

/-- White space read and not yet part of a scalar. Up to the first break it counts as it is; after
that only the breaks count. The gap before the first break is dropped. -/
structure Fold where
  /-- Gaps on the line, last first. -/
  gap : List Char
  /-- Whether a line has ended. -/
  broken : Bool
  /-- The first break; none if it was escaped. -/
  first : Option Char
  /-- The breaks after it, last first. -/
  more : List Char
deriving DecidableEq, Repr

namespace Fold

/-- No white space. -/
def empty : Fold := ⟨[], false, none, []⟩

/-- White space after an escaped break. -/
def escaped : Fold := ⟨[], true, none, []⟩

/-- Whether there is any. -/
def isEmpty (fold : Fold) : Bool := fold.gap.isEmpty && !fold.broken

/-- One more space or tab. -/
def addGap (fold : Fold) (c : Char) : Fold :=
  if fold.broken then fold else { fold with gap := c :: fold.gap }

/-- One more break. -/
def addBreak (fold : Fold) (c : Char) : Fold :=
  if fold.broken then { fold with more := breakText c :: fold.more }
  else ⟨[], true, some (breakText c), []⟩

/-- What the white space stands for, last character first. A single line feed is a space, further
ones stand for themselves. -/
def reading (fold : Fold) : List Char :=
  if !fold.broken then fold.gap
  else if fold.first = some '\n' then (if fold.more.isEmpty then [' '] else fold.more)
  else fold.more ++ fold.first.toList

end Fold

/-- What is expected inside double quotes: text, the character after a backslash, or the digits of a
code, of which `left` are missing besides the next. -/
inductive Mode
  | text
  | escape
  | code (left value : Nat)
deriving DecidableEq, Repr

/-- The value of a hexadecimal digit. -/
def hexValue? (c : Char) : Option Nat :=
  if '0' ≤ c ∧ c ≤ '9' then some (c.toNat - '0'.toNat)
  else if 'a' ≤ c ∧ c ≤ 'f' then some (c.toNat - 'a'.toNat + 10)
  else if 'A' ≤ c ∧ c ≤ 'F' then some (c.toNat - 'A'.toNat + 10)
  else none

/-- The character that an escape of one letter stands for. -/
def escaped? (c : Char) : Option Char :=
  match c with
  | '0' => some '\x00'
  | 'a' => some '\x07'
  | 'b' => some '\x08'
  | 't' | '\t' => some '\t'
  | 'n' => some '\n'
  | 'v' => some '\x0b'
  | 'f' => some '\x0c'
  | 'r' => some '\r'
  | 'e' => some '\x1b'
  | ' ' | '"' | '/' | '\\' => some c
  | 'N' => some '\x85'
  | '_' => some '\xa0'
  | 'L' => some '\u2028'
  | 'P' => some '\u2029'
  | _ => none

/-- How many digits a coded escape has. -/
def codeWidth? (c : Char) : Option Nat :=
  match c with
  | 'x' => some 2
  | 'u' => some 4
  | 'U' => some 8
  | _ => none

/-- Reads a quoted scalar behind its opening quote. `text` holds what was read, last first. -/
def quotedFrom (single : Bool) (fold : Fold) (mode : Mode) (text : List Char) (mark : Mark) :
    List Char → Except Fault (List Char × Cursor)
  | [] => malformed "unexpected end of the text in a quoted scalar" mark
  | c :: rest =>
    match mode with
    | .code left value =>
      match hexValue? c with
      | none => malformed "a hexadecimal digit is missing" mark
      | some digit =>
        let value := value * 16 + digit
        match left with
        | left + 1 => quotedFrom single fold (.code left value) text (mark.right c) rest
        | 0 =>
          if value.isValidChar then
            quotedFrom single fold .text (Char.ofNat value :: text) (mark.right c) rest
          else malformed "no character has this code" mark
    | .escape =>
      if isBreak c then
        match c, rest with
        | '\r', '\n' :: rest => quotedFrom single .escaped .text text (mark.down 2) rest
        | _, rest => quotedFrom single .escaped .text text (mark.down c.utf8Size) rest
      else match escaped? c, codeWidth? c with
        | some d, _ => quotedFrom single fold .text (d :: text) (mark.right c) rest
        | none, some width => quotedFrom single fold (.code (width - 1) 0) text (mark.right c) rest
        | none, none => malformed "unknown escape" mark
    | .text =>
      if isGap c then quotedFrom single (fold.addGap c) .text text (mark.right c) rest
      else if isBreak c then
        match c, rest with
        | '\r', '\n' :: rest => quotedFrom single (fold.addBreak c) .text text (mark.down 2) rest
        | _, rest => quotedFrom single (fold.addBreak c) .text text (mark.down c.utf8Size) rest
      else if mark.column = 0 && startsMarker (c :: rest) then
        malformed "unexpected document marker in a quoted scalar" mark
      else
        let text := fold.reading ++ text
        if single then
          if c = '\'' then
            match rest with
            | '\'' :: rest =>
              quotedFrom single .empty .text ('\'' :: text) ((mark.right c).right c) rest
            | rest => .ok (text.reverse, ⟨rest, mark.right c⟩)
          else quotedFrom single .empty .text (c :: text) (mark.right c) rest
        else if c = '"' then .ok (text.reverse, ⟨rest, mark.right c⟩)
        else if c = '\\' then quotedFrom single .empty .escape text (mark.right c) rest
        else quotedFrom single .empty .text (c :: text) (mark.right c) rest

/-- The quoted scalar at the cursor. -/
def quoted (single : Bool) (cursor : Cursor) : Except Fault (Token × Cursor) := do
  let (text, after) ← quotedFrom single .empty .text [] cursor.right.mark cursor.right.rest
  let style := if single then Style.singleQuoted else Style.doubleQuoted
  .ok (⟨.scalar (String.ofList text) style, cursor.mark, after.mark⟩, after)

/-- Characters with a meaning of their own inside flow collections. -/
def isFlowIndicator (c : Char) : Bool := c = ',' || c = '[' || c = ']' || c = '\x7b' || c = '\x7d'

/-- A plain scalar that was read. -/
structure PlainText where
  text : List Char
  /-- Where the last character of the scalar ends. -/
  stop : Mark
  /-- Whether the line ended after it. -/
  broken : Bool
  /-- What follows, white space behind the scalar excluded. -/
  after : Cursor

/-- Reads a plain scalar; `text` holds what was read, last first. Outside flow collections the lines
after the first must reach the column `indent`. -/
def plainFrom (inFlow : Bool) (indent : Int) (fold : Fold) (text : List Char) (stop mark : Mark) :
    List Char → Except Fault PlainText
  | [] => .ok ⟨text.reverse, stop, fold.broken, ⟨[], mark⟩⟩
  | c :: rest =>
    if isGap c then
      if fold.broken && c = '\t' && mark.column < indent then
        malformed "a tab stands where indentation is expected" mark
      else plainFrom inFlow indent (fold.addGap c) text stop (mark.right c) rest
    else if isBreak c then
      match c, rest with
      | '\r', '\n' :: rest =>
        plainFrom inFlow indent (fold.addBreak c) text stop (mark.down 2) rest
      | _, rest => plainFrom inFlow indent (fold.addBreak c) text stop (mark.down c.utf8Size) rest
    else
      let ends := !fold.isEmpty && ((!inFlow && mark.column < indent) || c = '#')
        || (mark.column = 0 && startsMarker (c :: rest))
      let next := rest.head?
      if ends then .ok ⟨text.reverse, stop, fold.broken, ⟨c :: rest, mark⟩⟩
      else if inFlow && c = ':' && next.any (fun d => isFlowIndicator d || d = '?') then
        malformed "unexpected colon in a plain scalar" mark
      else if (c = ':' && endsWord next) || (inFlow && isFlowIndicator c) then
        .ok ⟨text.reverse, stop, fold.broken, ⟨c :: rest, mark⟩⟩
      else
        let stop := mark.right c
        plainFrom inFlow indent .empty (c :: (fold.reading ++ text)) stop stop rest

/-- The plain scalar at the cursor, and whether a line ended behind it. -/
def plain (inFlow : Bool) (indent : Int) (cursor : Cursor) :
    Except Fault (Token × Bool × Cursor) := do
  let read ← plainFrom inFlow indent .empty [] cursor.mark cursor.mark cursor.rest
  .ok (⟨.scalar (String.ofList read.text) .plain, cursor.mark, read.stop⟩, read.broken, read.after)

/-- What happens to the breaks at the end of a block scalar. -/
inductive Chomping
  | strip
  | clip
  | keep
deriving DecidableEq, Repr

/-- A block scalar while it is read. -/
structure Block where
  /-- What was read, last first. -/
  text : List Char
  /-- The column of the content; zero while it is not known. -/
  indent : Nat
  /-- The rightmost column reached in front of the content. -/
  widest : Nat
  /-- The break that ended the last line of content. -/
  first : List Char
  /-- The breaks after it, last first. -/
  more : List Char
  /-- Whether the last line of content started with a gap. -/
  gapBefore : Bool
  /-- Whether the line that is read has reached its content. -/
  inContent : Bool
deriving DecidableEq, Repr

namespace Block

/-- The block scalar before its first line. -/
def start (indent : Nat) : Block := ⟨[], indent, 0, [], [], false, false⟩

/-- The column of the content, now that a line with content was reached. -/
def settle (block : Block) (outer : Int) (column : Nat) : Block :=
  let widest := max block.widest column
  if block.indent = 0 then { block with widest, indent := max (max widest (outer + 1).toNat) 1 }
  else { block with widest }

/-- The first character of a line of content. In a folded scalar a single break between lines that
start with no gap becomes a space. -/
def openLine (block : Block) (literal : Bool) (c : Char) : Block :=
  let joins := !literal && block.first = ['\n'] && !block.gapBefore && !isGap c
  let lead := if joins then (if block.more.isEmpty then [' '] else []) else block.first
  { block with
    text := c :: (block.more ++ lead ++ block.text)
    first := []
    more := []
    gapBefore := isGap c
    inContent := true }

/-- The text of the scalar. -/
def finish (block : Block) (chomping : Chomping) : String :=
  String.ofList <| List.reverse <| match chomping with
    | .strip => block.text
    | .clip => block.first ++ block.text
    | .keep => block.more ++ block.first ++ block.text

end Block

/-- Reads the lines of a block scalar inside a collection with the column `outer`. -/
def blockFrom (literal : Bool) (outer : Int) (block : Block) (mark : Mark) :
    List Char → Except Fault (Block × Cursor)
  | [] => .ok (block, ⟨[], mark⟩)
  | c :: rest =>
    if block.inContent then
      if isBreak c then
        let block := { block with first := [breakText c], inContent := false, widest := 0 }
        match c, rest with
        | '\r', '\n' :: rest => blockFrom literal outer block (mark.down 2) rest
        | _, rest => blockFrom literal outer block (mark.down c.utf8Size) rest
      else blockFrom literal outer { block with text := c :: block.text } (mark.right c) rest
    else
      let inMargin := block.indent = 0 || mark.column < block.indent
      if inMargin && c = ' ' then blockFrom literal outer block (mark.right c) rest
      else if inMargin && c = '\t' then
        malformed "a tab stands where indentation is expected" mark
      else if isBreak c then
        let block :=
          { block with more := breakText c :: block.more, widest := max block.widest mark.column }
        match c, rest with
        | '\r', '\n' :: rest => blockFrom literal outer block (mark.down 2) rest
        | _, rest => blockFrom literal outer block (mark.down c.utf8Size) rest
      else
        let block := block.settle outer mark.column
        if mark.column = block.indent then
          blockFrom literal outer (block.openLine literal c) (mark.right c) rest
        else .ok (block, ⟨c :: rest, mark⟩)

/-- The chomping that an indicator asks for. -/
def chomping? : Option Char → Option Chomping
  | some '+' => some .keep
  | some '-' => some .strip
  | _ => none

/-- The indentation that an indicator asks for. -/
def increment? (next : Option Char) : Option Nat :=
  next >>= fun c => if c.isDigit then some (c.toNat - '0'.toNat) else none

/-- The indicators of a block scalar behind `|` or `>`, in either order. -/
def blockHeader (cursor : Cursor) : Except Fault (Chomping × Nat × Cursor) :=
  let read : Option Chomping × Option Nat × Cursor :=
    match chomping? cursor.next with
    | some chomping =>
      let cursor := cursor.right
      match increment? cursor.next with
      | some n => (some chomping, some n, cursor.right)
      | none => (some chomping, none, cursor)
    | none =>
      match increment? cursor.next with
      | some n =>
        let cursor := cursor.right
        match chomping? cursor.next with
        | some chomping => (some chomping, some n, cursor.right)
        | none => (none, some n, cursor)
      | none => (none, none, cursor)
  let (chomping, increment, cursor) := read
  if increment = some 0 then malformed "an indentation indicator is zero" cursor.mark
  else .ok (chomping.getD .clip, increment.getD 0, cursor)

/-- The block scalar at the cursor. -/
def block (literal : Bool) (outer : Int) (cursor : Cursor) : Except Fault (Token × Cursor) := do
  let (chomping, increment, after) ← blockHeader cursor.right
  let after := after.pastComment
  if !endsLine after.next then malformed "a comment or the end of the line is expected" after.mark
  else
    let after := if after.next.isSome then after.pastBreak else after
    let indent := if increment = 0 then 0 else (max outer 0).toNat + increment
    let (read, after) ← blockFrom literal outer (.start indent) after.mark after.rest
    let style := if literal then Style.literal else Style.folded
    .ok (⟨.scalar (read.finish chomping) style, cursor.mark, after.mark⟩, after)

end TrustedRoot.Yaml.Scalar
