import TrustedRoot.Yaml.Token.Scalar

/-!
Anchors, aliases, tags and directives as tokens.
-/

namespace TrustedRoot.Yaml

namespace Tag

/-- Characters of a tag besides word characters and escapes. The last three may stand in a tag only
between angle brackets and in directives. -/
def isUriChar (verbatim : Bool) (c : Char) : Bool :=
  isWordChar c || ";/?:@&=+$.!~*'()".toList.contains c || (verbatim && ",[]".toList.contains c)

/-- The byte that `%` and two hexadecimal digits stand for. -/
def escapedByte? (cursor : Cursor) : Option Nat :=
  match cursor.next, cursor.ahead 1 >>= Scalar.hexValue?, cursor.ahead 2 >>= Scalar.hexValue? with
  | some '%', some high, some low => some (high * 16 + low)
  | _, _, _ => none

/-- How many bytes a character has that starts with the given byte. -/
def width? (byte : Nat) : Option Nat :=
  if byte < 0x80 then some 1
  else if byte / 0x20 = 6 then some 2
  else if byte / 0x10 = 14 then some 3
  else if byte / 8 = 30 then some 4
  else none

/-- The bytes of a character whose further bytes are escaped. -/
def escapedBytes (cursor : Cursor) : Nat → Except Fault (Bytes × Cursor)
  | 0 => .ok ([], cursor)
  | left + 1 =>
    match escapedByte? cursor with
    | none => malformed "an escaped byte is missing in a tag" cursor.mark
    | some byte =>
      if byte / 0x40 = 2 then do
        let (bytes, cursor) ← escapedBytes (cursor.forward 3) left
        .ok (UInt8.ofNat byte :: bytes, cursor)
      else malformed "a wrong byte follows in a tag" cursor.mark

/-- Reads the characters of a tag, at most `limit` of them. -/
def uriFrom (verbatim : Bool) (cursor : Cursor) : Nat → Except Fault (Bytes × Cursor)
  | 0 => .ok ([], cursor)
  | limit + 1 =>
    match cursor.next with
    | some '%' =>
      match escapedByte? cursor with
      | none => malformed "an escaped byte is missing in a tag" cursor.mark
      | some byte =>
        match width? byte with
        | none => malformed "a wrong byte starts a character in a tag" cursor.mark
        | some width => do
          let (bytes, cursor) ← escapedBytes (cursor.forward 3) (width - 1)
          let (more, cursor) ← uriFrom verbatim cursor limit
          .ok (UInt8.ofNat byte :: bytes ++ more, cursor)
    | some c =>
      if isUriChar verbatim c then do
        let (more, cursor) ← uriFrom verbatim cursor.right limit
        .ok (Utf8.encodeChars [c] ++ more, cursor)
      else .ok ([], cursor)
    | none => .ok ([], cursor)

/-- The characters of a tag at the cursor, behind the part `head` that was read already. A zero byte
ends a tag: what follows it is read, but does not count. -/
def uri (verbatim : Bool) (head : Bytes) (cursor : Cursor) : Except Fault (Bytes × Cursor) := do
  let (bytes, after) ← uriFrom verbatim cursor cursor.rest.length
  if head.isEmpty && bytes.isEmpty then malformed "a tag is missing" cursor.mark
  else .ok ((head.tail ++ bytes).takeWhile (· ≠ 0), after)

/-- The handle at the cursor: `!`, then word characters, then perhaps another `!`. -/
def handle (directive : Bool) (cursor : Cursor) : Except Fault (Bytes × Cursor) :=
  if cursor.next ≠ some '!' then malformed "an exclamation mark is expected" cursor.mark
  else
    let (word, after) := cursor.right.span isWordChar
    let bytes := Utf8.encodeChars ('!' :: word)
    if after.next = some '!' then .ok (bytes ++ Utf8.encodeChars ['!'], after.right)
    else if directive && !word.isEmpty then malformed "an exclamation mark is expected" after.mark
    else .ok (bytes, after)

/-- The byte `!`. -/
def bang : UInt8 := 33

/-- Handle and suffix of the tag at the cursor. The tag `!` alone has an empty handle. -/
def parts (cursor : Cursor) : Except Fault (Bytes × Bytes × Cursor) :=
  if cursor.ahead 1 = some '<' then do
    let (suffix, after) ← uri true [] (cursor.forward 2)
    if after.next = some '>' then .ok ([], suffix, after.right)
    else malformed "the end of a tag is expected" after.mark
  else do
    let (handle, after) ← handle false cursor
    if 1 < handle.length ∧ handle.getLast? = some bang then
      let (suffix, after) ← uri false [] after
      .ok (handle, suffix, after)
    else
      let (suffix, after) ← uri false handle after
      if suffix.isEmpty then .ok ([], [bang], after) else .ok ([bang], suffix, after)

/-- The tag at the cursor. -/
def scan (inFlow : Bool) (cursor : Cursor) : Except Fault (Token × Cursor) := do
  let (handle, suffix, after) ← parts cursor
  if (inFlow && after.next = some ',') || endsWord after.next then
    .ok (⟨.tag handle suffix, cursor.mark, after.mark⟩, after)
  else malformed "white space is expected behind a tag" after.mark

end Tag

namespace Anchor

/-- Characters besides white space that may follow the name of an anchor or an alias. -/
def mayFollow (next : Option Char) : Bool :=
  endsWord next || next.any fun c => "?:,]\x7d%@`".toList.contains c

/-- The anchor or alias at the cursor. -/
def scan (isAlias : Bool) (cursor : Cursor) : Except Fault (Token × Cursor) :=
  let (name, after) := cursor.right.span isWordChar
  if name.isEmpty || !mayFollow after.next then
    malformed "the name of an anchor is expected" after.mark
  else
    let name := String.ofList name
    let kind := if isAlias then TokenKind.alias name else TokenKind.anchor name
    .ok (⟨kind, cursor.mark, after.mark⟩, after)

end Anchor

namespace Directive

/-- A number of a version, of at most nine digits. -/
def number (cursor : Cursor) : Except Fault (Nat × Cursor) :=
  let (digits, after) := cursor.span Char.isDigit
  if digits.isEmpty || 9 < digits.length then malformed "a version number is expected" cursor.mark
  else .ok ((String.ofList digits).toNat?.getD 0, after)

/-- The version at the cursor. -/
def version (cursor : Cursor) : Except Fault (TokenKind × Cursor) := do
  let (major, after) ← number (cursor.span isGap).2
  if after.next = some '.' then
    let (minor, after) ← number after.right
    .ok (.versionDirective major minor, after)
  else malformed "a point is expected in a version" after.mark

/-- The handle and its expansion at the cursor. -/
def tagHandle (cursor : Cursor) : Except Fault (TokenKind × Cursor) := do
  let (handle, after) ← Tag.handle true (cursor.span isGap).2
  if !after.next.any isGap then malformed "white space is expected in a directive" after.mark
  else
    let (expansion, after) ← Tag.uri true [] (after.span isGap).2
    if endsWord after.next then .ok (.tagDirective handle expansion, after)
    else malformed "white space is expected in a directive" after.mark

/-- The directive at the cursor, to the end of its line. -/
def scan (cursor : Cursor) : Except Fault (Token × Cursor) := do
  let (name, after) := cursor.right.span isWordChar
  if name.isEmpty || !endsWord after.next then
    malformed "the name of a directive is expected" after.mark
  else
    let (kind, after) ←
      if name = "YAML".toList then version after
      else if name = "TAG".toList then tagHandle after
      else malformed "unknown directive" cursor.mark
    let stop := after.mark
    let after := after.pastComment
    if !endsLine after.next then malformed "a comment or the end of the line is expected" after.mark
    else
      let after := if after.next.isSome then after.pastBreak else after
      .ok (⟨kind, cursor.mark, stop⟩, after)

end Directive
end TrustedRoot.Yaml
