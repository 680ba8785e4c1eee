import TrustedRoot.Yaml.Token.Lexer

/-!
The events of a text: its tokens read by the grammar. Each step of the reader makes one event, so
the events in front of a fault are known.
-/

namespace TrustedRoot.Yaml

/-- A scalar as it stands in a document. -/
structure ScalarNode where
  anchor : Option String
  /-- The tag with its handle expanded. -/
  tag : Option Bytes
  text : String
  style : Style
deriving DecidableEq, Repr

/-- A step through a document. -/
inductive EventKind
  | streamStart
  | streamEnd
  | documentStart
  | documentEnd
  | alias (name : String)
  | scalar (node : ScalarNode)
  | sequenceStart (anchor : Option String)
  | sequenceEnd
  | mappingStart (anchor : Option String)
  | mappingEnd
deriving DecidableEq, Repr

/-- An event and where it starts. -/
structure Event where
  kind : EventKind
  mark : Mark
deriving DecidableEq, Repr

/-- What a reader of tokens expects next. -/
inductive Expected
  | streamStart
  | documentStart (implicit : Bool)
  | documentContent
  | documentEnd
  | blockNode
  | sequenceEntry (first : Bool)
  | indentlessEntry
  | mappingKey (first : Bool)
  | mappingValue
  | flowEntry (first : Bool)
  | flowPairKey
  | flowPairValue
  | flowPairEnd
  | flowKey (first : Bool)
  | flowValue (empty : Bool)
  | nothing
deriving DecidableEq, Repr

/-- A reader of tokens: what it expects, and what it will expect after the nodes around. -/
structure Reader where
  tokens : List Token
  /-- The fault that hides the tokens after these. -/
  fault : Option Fault
  expected : Expected
  outer : List Expected
  /-- The handles of tags and their expansions. -/
  handles : List (Bytes × Bytes)

namespace Reader

/-- An event and the reader behind it. -/
abbrev Step := Except Fault (Event × Reader)

/-- The next token. -/
def peek (reader : Reader) : Except Fault Token :=
  match reader.tokens with
  | token :: _ => .ok token
  | [] => .error (reader.fault.getD (.malformed "unexpected end of the tokens" .start))

/-- The reader behind the next token. -/
def skip (reader : Reader) : Reader := { reader with tokens := reader.tokens.tail }

/-- The reader after a node, which expects what the collection around does. -/
def leave (reader : Reader) : Reader :=
  match reader.outer with
  | expected :: outer => { reader with expected, outer }
  | [] => { reader with expected := .nothing }

/-- The reader in front of a node, after which it is to expect `expected`. -/
def enter (reader : Reader) (expected : Expected) : Reader :=
  { reader with outer := expected :: reader.outer }

/-- The reader with something else to expect. -/
def expect (reader : Reader) (expected : Expected) : Reader := { reader with expected }

/-- An event. -/
def event (reader : Reader) (kind : EventKind) (mark : Mark) : Step := .ok (⟨kind, mark⟩, reader)

/-- The event of a scalar that is left out. -/
def emptyScalar (reader : Reader) (mark : Mark) : Step :=
  reader.event (.scalar ⟨none, none, "", .plain⟩) mark

/-- The handles that need no directive. -/
def standardHandles : List (Bytes × Bytes) := [
  (Utf8.encode "!", Utf8.encode "!"),
  (Utf8.encode "!!", Utf8.encode "tag:yaml.org,2002:")]

/-- Anchor and tag in front of a node, in either order, and the place where they start. -/
structure Properties where
  anchor : Option String
  tag : Option (Bytes × Bytes)
  mark : Mark

/-- Reads anchor and tag. -/
def properties (reader : Reader) : Except Fault (Properties × Reader) := do
  let token ← reader.peek
  match token.kind with
  | .anchor name =>
    let reader := reader.skip
    match (← reader.peek).kind with
    | .tag handle suffix => .ok (⟨some name, some (handle, suffix), token.start⟩, reader.skip)
    | _ => .ok (⟨some name, none, token.start⟩, reader)
  | .tag handle suffix =>
    let reader := reader.skip
    match (← reader.peek).kind with
    | .anchor name => .ok (⟨some name, some (handle, suffix), token.start⟩, reader.skip)
    | _ => .ok (⟨none, some (handle, suffix), token.start⟩, reader)
  | _ => .ok (⟨none, none, token.start⟩, reader)

/-- A tag with its handle expanded. -/
def expandTag (reader : Reader) (found : Properties) : Except Fault (Option Bytes) :=
  match found.tag with
  | none => .ok none
  | some (handle, suffix) =>
    if handle.isEmpty then .ok (some suffix)
    else match reader.handles.find? (·.1 = handle) with
      | some (_, expansion) => .ok (some (expansion ++ suffix))
      | none => malformed "undefined handle of a tag" found.mark

/-- Reads the start of a node. Block collections are nodes only where `block` holds, and a sequence
without indentation only where `indentless` does. -/
def node (reader : Reader) (block indentless : Bool) : Step := do
  let token ← reader.peek
  match token.kind with
  | .alias name => reader.skip.leave.event (.alias name) token.start
  | _ =>
    let (found, reader) ← reader.properties
    let tag ← reader.expandTag found
    let token ← reader.peek
    let start (expected : Expected) (kind : Option String → EventKind) : Step :=
      (reader.expect expected).event (kind found.anchor) found.mark
    if indentless && token.kind = .blockEntry then start .indentlessEntry .sequenceStart
    else match token.kind with
      | .scalar text style =>
        reader.skip.leave.event (.scalar ⟨found.anchor, tag, text, style⟩) found.mark
      | .flowSequenceStart => start (.flowEntry true) .sequenceStart
      | .flowMappingStart => start (.flowKey true) .mappingStart
      | kind =>
        if block && kind = .blockSequenceStart then start (.sequenceEntry true) .sequenceStart
        else if block && kind = .blockMappingStart then start (.mappingKey true) .mappingStart
        else if found.anchor.isSome || tag.isSome then
          reader.leave.event (.scalar ⟨found.anchor, tag, "", .plain⟩) found.mark
        else malformed "the content of a node is expected" token.start

/-- Reads directives; `version` tells whether one has given the version. Each directive is a token,
so as many steps as there are tokens suffice. -/
def directives (reader : Reader) (version : Bool) : Nat → Except Fault Reader
  | 0 => .ok reader
  | limit + 1 => do
    let token ← reader.peek
    match token.kind with
    | .versionDirective major minor =>
      if version then malformed "the version is given twice" token.start
      else if major ≠ 1 ∨ (minor ≠ 1 ∧ minor ≠ 2) then
        malformed "the version is not supported" token.start
      else directives reader.skip true limit
    | .tagDirective handle expansion =>
      if reader.handles.any (·.1 = handle) then malformed "a handle is given twice" token.start
      else
        let handles := reader.handles ++ [(handle, expansion)]
        directives { reader.skip with handles } version limit
    | _ => .ok reader

/-- Reads the directives in front of a document; the standard handles come after those given. -/
def allDirectives (reader : Reader) : Except Fault Reader := do
  let reader ← directives { reader with handles := [] } false (reader.tokens.length + 1)
  .ok { reader with handles := reader.handles ++ standardHandles }

/-- Reads the start of a document, or the end of the text. -/
def documentStart (reader : Reader) (implicit : Bool) : Step := do
  let reader :=
    if implicit then reader
    else { reader with tokens := reader.tokens.dropWhile (·.kind = .documentEnd) }
  let token ← reader.peek
  match token.kind with
  | .streamEnd => (reader.skip.expect .nothing).event .streamEnd token.start
  | kind =>
    let explicit := match kind with
      | .versionDirective .. | .tagDirective .. | .documentStart => true
      | _ => false
    let reader ← reader.allDirectives
    if implicit && !explicit then
      ((reader.enter .documentEnd).expect .blockNode).event .documentStart token.start
    else
      let next ← reader.peek
      if next.kind = .documentStart then
        ((reader.skip.enter .documentEnd).expect .documentContent).event .documentStart token.start
      else malformed "the start of a document is expected" next.start

/-- Reads the content of a document behind its marker. -/
def documentContent (reader : Reader) : Step := do
  let token ← reader.peek
  match token.kind with
  | .versionDirective .. | .tagDirective .. | .documentStart | .documentEnd | .streamEnd =>
    reader.leave.emptyScalar token.start
  | _ => reader.node true false

/-- Reads the end of a document. -/
def documentEnd (reader : Reader) : Step := do
  let token ← reader.peek
  let reader := if token.kind = .documentEnd then reader.skip else reader
  (reader.expect (.documentStart false)).event .documentEnd token.start

/-- Whether a token ends the part of a block collection in front of it. -/
def endsPart : TokenKind → Bool
  | .key | .value | .blockEnd => true
  | _ => false

/-- Reads an entry of a block sequence or its end. -/
def sequenceEntry (reader : Reader) : Step := do
  let token ← reader.peek
  match token.kind with
  | .blockEntry =>
    let reader := reader.skip
    let next ← reader.peek
    if next.kind = .blockEntry ∨ next.kind = .blockEnd then
      (reader.expect (.sequenceEntry false)).emptyScalar token.stop
    else (reader.enter (.sequenceEntry false)).node true false
  | .blockEnd => reader.skip.leave.event .sequenceEnd token.start
  | _ => malformed "a dash is expected" token.start

/-- Reads an entry of a sequence without indentation or its end. -/
def indentlessEntry (reader : Reader) : Step := do
  let token ← reader.peek
  match token.kind with
  | .blockEntry =>
    let reader := reader.skip
    let next ← reader.peek
    if next.kind = .blockEntry || endsPart next.kind then
      (reader.expect .indentlessEntry).emptyScalar token.stop
    else (reader.enter .indentlessEntry).node true false
  | _ => reader.leave.event .sequenceEnd token.start

/-- Reads a key of a block mapping or its end. -/
def mappingKey (reader : Reader) : Step := do
  let token ← reader.peek
  match token.kind with
  | .key =>
    let reader := reader.skip
    let next ← reader.peek
    if endsPart next.kind then (reader.expect .mappingValue).emptyScalar token.stop
    else (reader.enter .mappingValue).node true true
  | .blockEnd => reader.skip.leave.event .mappingEnd token.start
  | _ => malformed "a key is expected" token.start

/-- Reads a value of a block mapping. -/
def mappingValue (reader : Reader) : Step := do
  let token ← reader.peek
  match token.kind with
  | .value =>
    let reader := reader.skip
    let next ← reader.peek
    if endsPart next.kind then (reader.expect (.mappingKey false)).emptyScalar token.stop
    else (reader.enter (.mappingKey false)).node true true
  | _ => (reader.expect (.mappingKey false)).emptyScalar token.start

/-- Reads the comma between the entries of a flow collection. -/
def comma (reader : Reader) (first : Bool) : Except Fault Reader := do
  let token ← reader.peek
  if first then .ok reader
  else if token.kind = .flowEntry then .ok reader.skip
  else malformed "a comma is expected" token.start

/-- Reads an entry of a flow sequence or its end. -/
def flowEntry (reader : Reader) (first : Bool) : Step := do
  let finish (reader : Reader) (token : Token) : Step :=
    reader.skip.leave.event .sequenceEnd token.start
  let token ← reader.peek
  if token.kind = .flowSequenceEnd then finish reader token
  else
    let reader ← reader.comma first
    let token ← reader.peek
    if token.kind = .key then
      (reader.skip.expect .flowPairKey).event (.mappingStart none) token.start
    else if token.kind = .flowSequenceEnd then finish reader token
    else (reader.enter (.flowEntry false)).node false false

/-- Whether a token ends an entry of a flow sequence. -/
def endsEntry (kind : TokenKind) : Bool := kind = .flowEntry || kind = .flowSequenceEnd

/-- Reads the key of a single pair in a flow sequence. -/
def flowPairKey (reader : Reader) : Step := do
  let token ← reader.peek
  if token.kind = .value || endsEntry token.kind then
    (reader.skip.expect .flowPairValue).emptyScalar token.stop
  else (reader.enter .flowPairValue).node false false

/-- Reads the value of a single pair in a flow sequence. -/
def flowPairValue (reader : Reader) : Step := do
  let token ← reader.peek
  if token.kind = .value then
    let reader := reader.skip
    let token ← reader.peek
    if endsEntry token.kind then (reader.expect .flowPairEnd).emptyScalar token.start
    else (reader.enter .flowPairEnd).node false false
  else (reader.expect .flowPairEnd).emptyScalar token.start

/-- Reads the end of a single pair in a flow sequence. -/
def flowPairEnd (reader : Reader) : Step := do
  let token ← reader.peek
  (reader.expect (.flowEntry false)).event .mappingEnd token.start

/-- Whether a token ends a value of a flow mapping. -/
def endsValue (kind : TokenKind) : Bool := kind = .flowEntry || kind = .flowMappingEnd

/-- Reads a key of a flow mapping or its end. -/
def flowKey (reader : Reader) (first : Bool) : Step := do
  let finish (reader : Reader) (token : Token) : Step :=
    reader.skip.leave.event .mappingEnd token.start
  let token ← reader.peek
  if token.kind = .flowMappingEnd then finish reader token
  else
    let reader ← reader.comma first
    let token ← reader.peek
    if token.kind = .key then
      let reader := reader.skip
      let token ← reader.peek
      if token.kind = .value || endsValue token.kind then
        (reader.expect (.flowValue false)).emptyScalar token.start
      else (reader.enter (.flowValue false)).node false false
    else if token.kind = .flowMappingEnd then finish reader token
    else (reader.enter (.flowValue true)).node false false

/-- Reads a value of a flow mapping; `empty` if its key had no indicator. -/
def flowValue (reader : Reader) (empty : Bool) : Step := do
  let token ← reader.peek
  let after := reader.expect (.flowKey false)
  if empty || token.kind ≠ .value then after.emptyScalar token.start
  else
    let token ← reader.skip.peek
    if endsValue token.kind then after.skip.emptyScalar token.start
    else (reader.skip.enter (.flowKey false)).node false false

/-- Reads one event. -/
def step (reader : Reader) : Step := do
  match reader.expected with
  | .streamStart =>
    let token ← reader.peek
    (reader.skip.expect (.documentStart true)).event .streamStart token.start
  | .documentStart implicit => reader.documentStart implicit
  | .documentContent => reader.documentContent
  | .documentEnd => reader.documentEnd
  | .blockNode => reader.node true false
  | .sequenceEntry first => (if first then reader.skip else reader).sequenceEntry
  | .indentlessEntry => reader.indentlessEntry
  | .mappingKey first => (if first then reader.skip else reader).mappingKey
  | .mappingValue => reader.mappingValue
  | .flowEntry first => (if first then reader.skip else reader).flowEntry first
  | .flowPairKey => reader.flowPairKey
  | .flowPairValue => reader.flowPairValue
  | .flowPairEnd => reader.flowPairEnd
  | .flowKey first => (if first then reader.skip else reader).flowKey first
  | .flowValue empty => reader.flowValue empty
  | .nothing => malformed "nothing is expected" .start

/-- The events up to the end of the text or a fault, at most `limit` of them. -/
def run (reader : Reader) : Nat → List Event × Option Fault
  | 0 => ([], none)
  | limit + 1 =>
    match reader.step with
    | .error fault => ([], some fault)
    | .ok (event, reader) =>
      if event.kind = .streamEnd then ([event], none)
      else
        let (events, fault) := run reader limit
        (event :: events, fault)

end Reader

/-- The events of a text up to its first fault, if there is one. No two events in a row come without
a token of their own but where an empty scalar stands for a missing key or value, so four events a
token suffice. -/
def Event.scan (text : String) : List Event × Option Fault :=
  let (tokens, fault) := Token.scan text.toList
  Reader.run ⟨tokens, fault, .streamStart, [], []⟩ (4 * tokens.length + 16)

end TrustedRoot.Yaml
