import TerraStack.Yaml.Error
import TerraStack.Yaml.Tag
import TerraStack.Yaml.Token

namespace TerraStack.Yaml

/-- What may stand in front of a node. -/
structure Properties where
  anchor : Option String := none
  tag : Option Tag := none
  deriving Repr, DecidableEq

/-- The start or the end of a collection, a scalar, or an alias that says by a `target` what it
stands for. A node is the event or the events that stand for it. Where a node may be missing, as
after the colon of the last key, an empty plain scalar stands for it. -/
inductive Event (target : Type) where
  | scalar (properties : Properties) (text : String) (isPlain : Bool)
  | alias (target : target)
  | sequenceStart (properties : Properties)
  | mappingStart (properties : Properties)
  | collectionEnd
  deriving Repr, DecidableEq

/-- Tokens still to be read, and the events written so far, the last one first. -/
structure EventStream where
  tokens : List Token
  events : List (Event String)

namespace EventStream

/-- The token at hand. -/
def peek (stream : EventStream) : Token :=
  stream.tokens.headD .streamEnd

def drop (stream : EventStream) : EventStream :=
  { stream with tokens := stream.tokens.drop 1 }

def emit (stream : EventStream) (event : Event String) : EventStream :=
  { stream with events := event :: stream.events }

/-- Write the scalar that stands for a missing node. -/
def emitEmpty (stream : EventStream) (properties : Properties := {}) : EventStream :=
  stream.emit (.scalar properties "" true)

end EventStream

/-- What the handles of tags stand for. -/
abbrev Handles := List (String × List UInt8)

/-- The handles that need no declaration. -/
def defaultHandles : Handles :=
  [("!", Tag.mark), ("!!", Tag.coreStart)]

/-- A tag spelled out in full. The empty handle stands for nothing. -/
def Handles.expand (handles : Handles) (handle : String) (suffix : List UInt8) :
    Except Error Tag :=
  if handle = "" then .ok ⟨suffix⟩
  else match handles.lookup handle with
    | some start => .ok ⟨start ++ suffix⟩
    | none => .error .undeclaredHandle

/-- Read the anchor and the tag in front of a node, in either order. -/
def readProperties (handles : Handles) (tokens : List Token) :
    Except Error (Properties × List Token) :=
  match tokens with
  | .anchor name :: .tag handle suffix :: rest =>
    (handles.expand handle suffix).map fun tag => (⟨some name, some tag⟩, rest)
  | .tag handle suffix :: .anchor name :: rest =>
    (handles.expand handle suffix).map fun tag => (⟨some name, some tag⟩, rest)
  | .anchor name :: rest => .ok (⟨some name, none⟩, rest)
  | .tag handle suffix :: rest =>
    (handles.expand handle suffix).map fun tag => (⟨none, some tag⟩, rest)
  | rest => .ok ({}, rest)

mutual

/-- Read a node. Block collections may start only where `block` says so, and a sequence without
indentation of its own only where `indentless` says so. -/
def readNode (handles : Handles) (block indentless : Bool) :
    Nat → EventStream → Except Error EventStream
  | 0, _ => .error .unexpectedToken
  | fuel + 1, stream =>
    match stream.peek with
    | .alias name => .ok (stream.drop.emit (.alias name))
    | _ => do
      let (properties, tokens) ← readProperties handles stream.tokens
      let stream := { stream with tokens }
      match stream.peek, block with
      | .scalar text isPlain, _ =>
        .ok (stream.drop.emit (.scalar properties text isPlain))
      | .flowSequenceStart, _ =>
        readFlowItems handles true fuel (stream.drop.emit (.sequenceStart properties))
      | .flowMappingStart, _ =>
        readFlowPairs handles true fuel (stream.drop.emit (.mappingStart properties))
      | .blockSequenceStart, true =>
        readBlockItems handles fuel (stream.drop.emit (.sequenceStart properties))
      | .blockMappingStart, true =>
        readBlockPairs handles fuel (stream.drop.emit (.mappingStart properties))
      | token, _ =>
        if indentless && token = .blockEntry then
          readIndentlessItems handles fuel (stream.emit (.sequenceStart properties))
        else if properties = {} then .error .unexpectedToken
        else .ok (stream.emitEmpty properties)

/-- Read the items of a block sequence. -/
def readBlockItems (handles : Handles) : Nat → EventStream → Except Error EventStream
  | 0, _ => .error .unexpectedToken
  | fuel + 1, stream => do
    match stream.peek with
    | .blockEntry =>
      let stream := stream.drop
      if [.blockEntry, .blockEnd].contains stream.peek then
        readBlockItems handles fuel stream.emitEmpty
      else readBlockItems handles fuel (← readNode handles true false fuel stream)
    | .blockEnd => .ok (stream.drop.emit .collectionEnd)
    | _ => .error .unexpectedToken

/-- Read the items of a sequence that is not indented deeper than the key it belongs to. -/
def readIndentlessItems (handles : Handles) : Nat → EventStream → Except Error EventStream
  | 0, _ => .error .unexpectedToken
  | fuel + 1, stream => do
    match stream.peek with
    | .blockEntry =>
      let stream := stream.drop
      if [.blockEntry, .key, .value, .blockEnd].contains stream.peek then
        readIndentlessItems handles fuel stream.emitEmpty
      else readIndentlessItems handles fuel (← readNode handles true false fuel stream)
    | _ => .ok (stream.emit .collectionEnd)

/-- Read a key or a value of a block mapping after its token, which may be missing. -/
def readBlockPart (handles : Handles) : Nat → EventStream → Except Error EventStream
  | 0, _ => .error .unexpectedToken
  | fuel + 1, stream =>
    if [.key, .value, .blockEnd].contains stream.peek then .ok stream.emitEmpty
    else readNode handles true true fuel stream

/-- Read the entries of a block mapping. -/
def readBlockPairs (handles : Handles) : Nat → EventStream → Except Error EventStream
  | 0, _ => .error .unexpectedToken
  | fuel + 1, stream => do
    match stream.peek with
    | .key =>
      let stream ← readBlockPart handles fuel stream.drop
      if stream.peek = .value then
        readBlockPairs handles fuel (← readBlockPart handles fuel stream.drop)
      else readBlockPairs handles fuel stream.emitEmpty
    | .blockEnd => .ok (stream.drop.emit .collectionEnd)
    | _ => .error .unexpectedToken

/-- Read the value of a flow entry if there is one. `closing` ends the collection. -/
def readFlowValue (handles : Handles) (closing : Token) :
    Nat → EventStream → Except Error EventStream
  | 0, _ => .error .unexpectedToken
  | fuel + 1, stream =>
    if stream.peek = .value then
      let stream := stream.drop
      if [.flowEntry, closing].contains stream.peek then .ok stream.emitEmpty
      else readNode handles false false fuel stream
    else .ok stream.emitEmpty

/-- Read the items of a flow sequence. An item with a colon is a mapping with one entry. Where the
key of such an entry is missing, the token in its place is lost. -/
def readFlowItems (handles : Handles) (first : Bool) : Nat → EventStream → Except Error EventStream
  | 0, _ => .error .unexpectedToken
  | fuel + 1, stream => do
    if stream.peek = .flowSequenceEnd then .ok (stream.drop.emit .collectionEnd)
    else if !first && stream.peek ≠ .flowEntry then .error .unexpectedToken
    else
      let stream := if first then stream else stream.drop
      match stream.peek with
      | .flowSequenceEnd => .ok (stream.drop.emit .collectionEnd)
      | .key =>
        let stream := stream.drop.emit (.mappingStart {})
        let stream ←
          if [.value, .flowEntry, .flowSequenceEnd].contains stream.peek then
            .ok stream.drop.emitEmpty
          else readNode handles false false fuel stream
        let stream ← readFlowValue handles .flowSequenceEnd fuel stream
        readFlowItems handles false fuel (stream.emit .collectionEnd)
      | _ => readFlowItems handles false fuel (← readNode handles false false fuel stream)

/-- Read the entries of a flow mapping. A key without a colon has no value. -/
def readFlowPairs (handles : Handles) (first : Bool) : Nat → EventStream → Except Error EventStream
  | 0, _ => .error .unexpectedToken
  | fuel + 1, stream => do
    if stream.peek = .flowMappingEnd then .ok (stream.drop.emit .collectionEnd)
    else if !first && stream.peek ≠ .flowEntry then .error .unexpectedToken
    else
      let stream := if first then stream else stream.drop
      match stream.peek with
      | .flowMappingEnd => .ok (stream.drop.emit .collectionEnd)
      | .key =>
        let stream := stream.drop
        let stream ←
          if [.value, .flowEntry, .flowMappingEnd].contains stream.peek then .ok stream.emitEmpty
          else readNode handles false false fuel stream
        readFlowPairs handles false fuel (← readFlowValue handles .flowMappingEnd fuel stream)
      | _ =>
        let stream ← readNode handles false false fuel stream
        readFlowPairs handles false fuel stream.emitEmpty

end

/-- Read the directives in front of a document. -/
def readDirectives (version : Bool) (handles : Handles) :
    List Token → Except Error (Handles × List Token)
  | .versionDirective major minor :: rest =>
    if version || major ≠ 1 || (minor ≠ 1 && minor ≠ 2) then .error .badDirective
    else readDirectives true handles rest
  | .tagDirective handle start :: rest =>
    if (handles.lookup handle).isSome then .error .badDirective
    else readDirectives version ((handle, start) :: handles) rest
  | rest => .ok (handles, rest)

/-- Read a document. Without a marker it has no directives and is not empty. -/
def readDocument (tokens : List Token) : Except Error EventStream := do
  let fuel := 4 * tokens.length + 8
  match tokens with
  | .versionDirective _ _ :: _ | .tagDirective _ _ :: _ | .documentStart :: _ =>
    let (handles, tokens) ← readDirectives false [] tokens
    if tokens.head? ≠ some .documentStart then .error .unexpectedToken
    let stream : EventStream := ⟨tokens.drop 1, []⟩
    match stream.peek with
    | .versionDirective _ _ | .tagDirective _ _ | .documentStart | .documentEnd | .streamEnd =>
      .ok stream.emitEmpty
    | _ => readNode (handles ++ defaultHandles) true false fuel stream
  | _ => readNode defaultHandles true false fuel ⟨tokens, []⟩

/-- The events of the one document in a text, none if the text holds no document. -/
def eventsOf (tokens : List Token) : Except Error (List (Event String)) := do
  if tokens.head? = some .streamEnd then .ok []
  else
    let stream ← readDocument tokens
    if (stream.tokens.dropWhile (· = .documentEnd)).head? = some .streamEnd then
      .ok stream.events.reverse
    else .error .severalDocuments

end TerraStack.Yaml
