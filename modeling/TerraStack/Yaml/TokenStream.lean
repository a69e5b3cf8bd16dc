import TerraStack.Yaml.BlockScalar
import TerraStack.Yaml.PlainScalar
import TerraStack.Yaml.Property
import TerraStack.Yaml.QuotedScalar

namespace TerraStack.Yaml

/-- A place where a key may have begun. A key without a question mark is known to be a key only at
its colon, so its token is put in front of it later. Such a key fits on a line and into 1024 bytes. -/
structure KeyCandidate where
  position : Position
  /-- The number of tokens before it. -/
  tokenCount : Nat
  /-- Whether only a key can stand there. -/
  isRequired : Bool

/-- A text of which some tokens have been read. Indentation opens and closes block collections, so
the stream keeps the columns of the open ones. It remembers where a key may have begun, one place
for each open flow collection. -/
structure TokenStream where
  cursor : Cursor
  /-- The tokens read, the last one first. -/
  tokens : List Token
  tokenCount : Nat
  /-- The columns of the open block collections, the innermost first. -/
  columns : List Nat
  /-- The candidate outside all flow collections and the one inside each, the innermost first. -/
  candidate : Option KeyCandidate
  outerCandidates : List (Option KeyCandidate)
  /-- Whether a key may begin here. -/
  keyAllowed : Bool

namespace TokenStream

def ofText (text : List Char) : TokenStream where
  cursor := .ofText text
  tokens := []
  tokenCount := 0
  columns := []
  candidate := none
  outerCandidates := []
  keyAllowed := true

def inFlow (stream : TokenStream) : Bool :=
  !stream.outerCandidates.isEmpty

def column (stream : TokenStream) : Nat :=
  stream.cursor.position.column

/-- The indentation of the innermost block collection, which is below zero if none is open. -/
def indent (stream : TokenStream) : Int :=
  match stream.columns with
  | [] => -1
  | column :: _ => column

def emit (stream : TokenStream) (token : Token) : TokenStream :=
  { stream with tokens := token :: stream.tokens, tokenCount := stream.tokenCount + 1 }

/-- Put a token behind the first `count` tokens. -/
def insertAfter (stream : TokenStream) (count : Nat) (token : Token) : TokenStream :=
  let later := stream.tokenCount - count
  { stream with
    tokens := stream.tokens.take later ++ token :: stream.tokens.drop later
    tokenCount := stream.tokenCount + 1 }

/-- Drop the candidate. One that had to be a key makes the text wrong. -/
def dropCandidate (stream : TokenStream) : Except Error TokenStream :=
  if stream.candidate.any (·.isRequired) then .error .missingColon
  else .ok { stream with candidate := none }

/-- Remember that a key may begin at the cursor. -/
def noteCandidate (stream : TokenStream) : Except Error TokenStream := do
  if stream.keyAllowed then
    let stream ← stream.dropCandidate
    .ok { stream with candidate := some {
      position := stream.cursor.position
      tokenCount := stream.tokenCount
      isRequired := !stream.inFlow && stream.indent = stream.column } }
  else .ok stream

/-- Whether a key that began at the candidate can still have its colon here. -/
def isFresh (position : Position) (candidate : KeyCandidate) : Bool :=
  candidate.position.line = position.line && position.index ≤ candidate.position.index + 1024

/-- Drop the candidates that lie too far back. -/
def dropStale (stream : TokenStream) : Except Error TokenStream :=
  let isStale (candidate : KeyCandidate) := !isFresh stream.cursor.position candidate
  let keep (candidate : Option KeyCandidate) := candidate.filter (!isStale ·)
  if (stream.candidate :: stream.outerCandidates).any
      (·.any fun candidate => candidate.isRequired && isStale candidate) then .error .missingColon
  else .ok { stream with
    candidate := keep stream.candidate
    outerCandidates := stream.outerCandidates.map keep }

/-- Open a block collection at a column deeper than the innermost one, with its token behind the
first `count` tokens. -/
def openBlock (stream : TokenStream) (column count : Nat) (token : Token) : TokenStream :=
  if !stream.inFlow && stream.indent < column then
    { stream.insertAfter count token with columns := column :: stream.columns }
  else stream

/-- Close the block collections that are indented deeper than a column. -/
def closeBlocks (column : Int) (stream : TokenStream) : TokenStream :=
  if stream.inFlow then stream
  else
    let closed := (stream.columns.takeWhile fun (inner : Nat) => column < (inner : Int)).length
    { stream with
      columns := stream.columns.drop closed
      tokens := List.replicate closed .blockEnd ++ stream.tokens
      tokenCount := stream.tokenCount + closed }

/-- Skip a byte order mark at the start of a line. It takes up a column all the same. -/
def skipMark (cursor : Cursor) : Cursor :=
  if cursor.position.column = 0 && cursor.rest.head? = some byteOrderMark then cursor.next
  else cursor

/-- Skip white space, comments and line ends. A tab may not stand where a block could be indented,
and a line end outside flow collections allows a key. -/
def skipGap : Nat → TokenStream → TokenStream
  | 0, stream => stream
  | fuel + 1, stream =>
    let isGap (c : Char) := c = ' ' || (c = '\t' && (stream.inFlow || !stream.keyAllowed))
    let cursor := skipComment ((skipMark stream.cursor).skipWhile isGap)
    match cursor.rest with
    | c :: _ =>
      if isBreak c then
        skipGap fuel { stream with
          cursor := cursor.next
          keyAllowed := stream.keyAllowed || !stream.inFlow }
      else { stream with cursor }
    | [] => { stream with cursor }

/-- Read an indicator of `width` characters as a token. -/
def readIndicator (stream : TokenStream) (width : Nat) (token : Token) : TokenStream :=
  { stream.emit token with cursor := stream.cursor.skip width }

/-- End all block collections, as the end of the text, a directive or a document marker does. -/
def endBlocks (stream : TokenStream) : Except Error TokenStream := do
  let stream ← (stream.closeBlocks (-1)).dropCandidate
  .ok { stream with keyAllowed := false }

def readFlowStart (stream : TokenStream) (token : Token) : Except Error TokenStream := do
  let stream ← stream.noteCandidate
  .ok { stream.readIndicator 1 token with
    outerCandidates := stream.candidate :: stream.outerCandidates
    candidate := none
    keyAllowed := true }

def readFlowEnd (stream : TokenStream) (token : Token) : Except Error TokenStream := do
  let stream ← stream.dropCandidate
  .ok { stream.readIndicator 1 token with
    candidate := stream.outerCandidates.headD none
    outerCandidates := stream.outerCandidates.drop 1
    keyAllowed := false }

def readFlowEntry (stream : TokenStream) : Except Error TokenStream := do
  let stream ← stream.dropCandidate
  .ok { stream.readIndicator 1 .flowEntry with keyAllowed := true }

/-- Open a block collection at the cursor, where an indicator stands. -/
def openBlockHere (stream : TokenStream) (token : Token) : Except Error TokenStream :=
  if !stream.inFlow && !stream.keyAllowed then .error .misplacedIndicator
  else .ok (stream.openBlock stream.column stream.tokenCount token)

def readBlockEntry (stream : TokenStream) : Except Error TokenStream := do
  let stream ← stream.openBlockHere .blockSequenceStart
  let stream ← stream.dropCandidate
  .ok { stream.readIndicator 1 .blockEntry with keyAllowed := true }

def readKey (stream : TokenStream) : Except Error TokenStream := do
  let stream ← stream.openBlockHere .blockMappingStart
  let stream ← stream.dropCandidate
  .ok { stream.readIndicator 1 .key with keyAllowed := !stream.inFlow }

/-- Read a colon. What stands at the candidate is a key now, and may open a block mapping. -/
def readValue (stream : TokenStream) : Except Error TokenStream := do
  match stream.candidate with
  | some candidate =>
    let stream := stream.insertAfter candidate.tokenCount .key
    let stream := stream.openBlock candidate.position.column candidate.tokenCount .blockMappingStart
    .ok { stream.readIndicator 1 .value with candidate := none, keyAllowed := false }
  | none =>
    let stream ← stream.openBlockHere .blockMappingStart
    .ok { stream.readIndicator 1 .value with keyAllowed := !stream.inFlow }

/-- Read an anchor, an alias, a tag or a scalar on one line, with which a key may begin. -/
def readWith (stream : TokenStream) (read : Cursor → Except Error (Token × Cursor)) :
    Except Error TokenStream := do
  let stream ← stream.noteCandidate
  let (token, cursor) ← read stream.cursor
  .ok { stream.emit token with cursor, keyAllowed := false }

def readBlockScalar (stream : TokenStream) (folded : Bool) : Except Error TokenStream := do
  let stream ← stream.dropCandidate
  let (text, cursor) ← readBlock folded stream.indent stream.cursor
  .ok { stream.emit (.scalar (.ofList text) false) with cursor, keyAllowed := true }

def readQuotedScalar (stream : TokenStream) (quote : Quote) : Except Error TokenStream :=
  stream.readWith fun cursor =>
    (readQuoted quote cursor).map fun (text, cursor) => (.scalar (.ofList text) false, cursor)

def readPlainScalar (stream : TokenStream) : Except Error TokenStream := do
  let stream ← stream.noteCandidate
  let scalar ← readPlain stream.inFlow (stream.indent + 1) stream.cursor
  .ok { stream.emit (.scalar (.ofList scalar.text) true) with
    cursor := scalar.cursor
    keyAllowed := scalar.endsLine }

/-- Whether a plain scalar may begin with a character that `next` follows. -/
def startsPlain (inFlow : Bool) (c : Char) (next : List Char) : Bool :=
  if c = '-' then !next.head?.any isSpace
  else if c = '?' || c = ':' then !inFlow && !atGap next
  else !(atGap [c] || isFlowIndicator c ||
    ['#', '&', '*', '!', '|', '>', '\'', '"', '%', '@', '`'].contains c)

/-- Read the token at the cursor, which stands behind white space. -/
def readToken (stream : TokenStream) (c : Char) (next : List Char) : Except Error TokenStream := do
  let atStart := stream.column = 0
  if atStart && c = '%' then
    let stream ← stream.endBlocks
    let (token, cursor) ← readDirective stream.cursor
    .ok { stream.emit token with cursor }
  else if atStart && isDocumentMarker '-' (c :: next) then
    (·.readIndicator 3 .documentStart) <$> stream.endBlocks
  else if atStart && isDocumentMarker '.' (c :: next) then
    (·.readIndicator 3 .documentEnd) <$> stream.endBlocks
  else match c with
    | '[' => stream.readFlowStart .flowSequenceStart
    | '\x7b' => stream.readFlowStart .flowMappingStart
    | ']' => stream.readFlowEnd .flowSequenceEnd
    | '\x7d' => stream.readFlowEnd .flowMappingEnd
    | ',' => stream.readFlowEntry
    | '*' => stream.readWith fun cursor => (readName cursor).map fun (n, rest) => (.alias n, rest)
    | '&' => stream.readWith fun cursor => (readName cursor).map fun (n, rest) => (.anchor n, rest)
    | '!' => stream.readWith (readTag stream.inFlow)
    | '\'' => stream.readQuotedScalar .single
    | '"' => stream.readQuotedScalar .double
    | c =>
      if c = '-' && atGap next then stream.readBlockEntry
      else if c = '?' && (stream.inFlow || atGap next) then stream.readKey
      else if c = ':' && (stream.inFlow || atGap next) then stream.readValue
      else if c = '|' && !stream.inFlow then stream.readBlockScalar false
      else if c = '>' && !stream.inFlow then stream.readBlockScalar true
      else if startsPlain stream.inFlow c next then stream.readPlainScalar
      else .error .unexpectedCharacter

/-- Read the tokens up to the end of the text, of which there are fewer than `fuel` characters left. -/
def readAll : Nat → TokenStream → Except Error (List Token)
  | 0, _ => .error .unexpectedCharacter
  | fuel + 1, stream => do
    let stream := stream.skipGap (fuel + 1)
    let stream ← stream.dropStale
    let stream := stream.closeBlocks stream.column
    match stream.cursor.rest with
    | [] =>
      let stream ← stream.endBlocks
      .ok (.streamEnd :: stream.tokens).reverse
    | c :: next => readAll fuel (← stream.readToken c next)

end TokenStream

/-- The tokens of a text. -/
def tokensOf (text : String) : Except Error (List Token) :=
  if text.toList.all isAllowed then
    let text := normalizeBreaks text.toList
    (TokenStream.ofText text).readAll (text.length + 1)
  else .error .forbiddenCharacter

end TerraStack.Yaml
