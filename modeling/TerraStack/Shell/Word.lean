import TerraStack.Shell.Syntax

namespace TerraStack.Shell

/-- A token of a script. -/
inductive Token where
  | word (word : Word)
  | operator (text : String)
  /-- A redirection, before whose operator a descriptor may stand. -/
  | redirect (descriptor : Option Nat) (operator : String)
  | newline
  | endOfFile

/-- The words that mean something where a command may start. -/
def keywords : List String :=
  ["!", "case", "do", "done", "elif", "else", "esac", "fi", "for", "if", "in", "then", "until",
    "while", "\x7b", "\x7d"]

/-- The text of a word without quotes and expansions. -/
def literal? : Word → Option Octets
  | [.text false octets] => some octets
  | _ => none

namespace Token

/-- The keyword that a token is where a command may start. -/
def keyword? : Token → Option String
  | .word pieces => ((literal? pieces).map String.ofList).filter keywords.contains
  | _ => none

/-- The token where no keyword can stand. -/
def asOperand (token : Token) : Token :=
  match token with
  | .word _ => .word []
  | token => token

/-- How a token is named to the operator. -/
def describe (token : Token) : String :=
  match token, token.keyword? with
  | _, some keyword => "\"" ++ keyword ++ "\""
  | .word _, none => "word"
  | .operator text, _ => "\"" ++ text ++ "\""
  | .redirect .., _ => "redirection"
  | .newline, _ => "newline"
  | .endOfFile, _ => "end of file"

end Token

/-- What is left of a script. -/
structure Source where
  rest : Octets
  line : Nat := 1
  /-- The lines that were taken out behind the line at hand. -/
  taken : Nat := 0
  /-- A token that was read too early. -/
  ahead : Option Token := none

/-- A reader of some text. Commands stand in words and words in commands, so those of words are
given a reader of commands, `nested`, that stops in front of a closing parenthesis. -/
abbrev Reader := StateT Source (Except Fault)

namespace Reader

def fail {α : Type} (reason : String) : Reader α := fun source =>
  .error ⟨source.line, reason⟩

/-- Skip a byte. -/
def advance : Reader Unit := modify fun source =>
  match source.rest with
  | [] => source
  | '\n' :: rest =>
    { source with rest, line := source.line + 1 + source.taken, taken := 0 }
  | _ :: rest => { source with rest }

/-- Skip some bytes. -/
def skip : Nat → Reader Unit
  | 0 => pure ()
  | count + 1 => do advance; skip count

/-- Read the bytes that `accept` accepts. -/
def takeWhile (accept : Char → Bool) : Reader Octets := do
  let taken := (← get).rest.takeWhile accept
  skip taken.length
  return taken

/-- Skip a byte if it is the next one. -/
def skipIf (c : Char) : Reader Bool := do
  if (← get).rest.head? = some c then
    advance
    return true
  else return false

/-- Complain about a token, and say which was expected instead, if only one could stand here. -/
def refuse {α : Type} (token : Token) (expected : Option String) : Reader α :=
  fail (token.describe ++ " unexpected" ++
    expected.elim "" fun text =>
      if text = "word" then " (expecting word)" else " (expecting \"" ++ text ++ "\")")

/-- Read another text, which starts on a line. -/
def within {α : Type} (text : Octets) (line : Nat) (reader : Reader α) : Reader α := do
  let source ← get
  set ({ rest := text, line } : Source)
  let result ← reader
  set source
  return result

end Reader

open Reader

/-- Where a word is read. -/
inductive Place where
  | bare
  /-- Between double quotes. -/
  | quotes
  /-- Behind the name of a parameter, in braces. -/
  | braces (isQuoted : Bool)
  /-- In an expression, in which some parentheses are open. -/
  | expression (depth : Nat)
  | document
  deriving DecidableEq

/-- Whether what is expanded in a place is quoted. -/
def Place.isQuoted : Place → Bool
  | .bare => false
  | .braces isQuoted => isQuoted
  | _ => true

/-- What is missing when a script ends in a place. -/
def Place.missing? : Place → Option String
  | .quotes => some "Unterminated quoted string"
  | .braces _ => some "Missing '\x7d'"
  | .expression _ => some "Missing '))'"
  | .bare | .document => none

/-- Whether a byte ends a word that is not quoted. -/
def endsWord (c : Char) : Bool :=
  [' ', '\t', '\n', ';', '&', '|', '<', '>', '(', ')'].contains c

/-- Whether a byte loses its meaning behind a backslash in a place. -/
def Place.escapes (place : Place) (c : Char) : Bool :=
  match place with
  | .bare | .braces false => true
  | .braces true => ['$', '`', '"', '\\', '\x7d'].contains c
  | .document | .expression _ => ['$', '`', '\\'].contains c
  | .quotes => ['$', '`', '"', '\\'].contains c

/-- Put a byte in front of pieces that are in reverse. -/
def pushOctet (isQuoted : Bool) (c : Char) (pieces : Word) : Word :=
  match pieces with
  | .text quoted octets :: rest =>
    if quoted = isQuoted then .text quoted (octets ++ [c]) :: rest else .text isQuoted [c] :: pieces
  | _ => .text isQuoted [c] :: pieces

/-- Whether a byte is the name of a parameter that is set by the shell. -/
def isSpecialParameter (c : Char) : Bool :=
  ['*', '@', '#', '?', '-', '$', '!'].contains c || c.isDigit

/-- Read the name of a parameter in braces. -/
def readParameterName : Reader (Option String) := do
  match (← get).rest with
  | c :: _ =>
    if startsName c then return some (.ofList (← takeWhile isNameOctet))
    else if c.isDigit then return some (.ofList (← takeWhile Char.isDigit))
    else if isSpecialParameter c then
      advance
      return some (.singleton c)
    else return none
  | [] => return none

/-- The text between backquotes, in which a backslash protects some bytes. -/
def readBackquoted (isQuoted : Bool) : Nat → Octets → Reader Octets
  | 0, done => pure done.reverse
  | fuel + 1, done => do
    match (← get).rest with
    | [] => fail "EOF in backquote substitution"
    | '`' :: _ => do advance; return done.reverse
    | '\\' :: c :: _ =>
      skip 2
      if c = '\\' || c = '`' || c = '$' || (isQuoted && c = '"') then
        readBackquoted isQuoted fuel (c :: done)
      else readBackquoted isQuoted fuel (c :: '\\' :: done)
    | c :: _ => do advance; readBackquoted isQuoted fuel (c :: done)

/-- Read commands up to a closing parenthesis, which is read too. -/
def readEnclosed (nested : Reader (List Command)) : Reader (List Command) := do
  let commands ← nested
  match (← get).ahead with
  | some (.operator ")") =>
    modify fun source => { source with ahead := none }
    return commands
  | token => refuse (token.getD .endOfFile) (some ")")

/-- Quotes make a word even if nothing is in them, of which an empty text is the mark. Around all
arguments they do not. -/
def withoutMark : Word → Word
  | [.parameter true "@" .value, .text true []] => [.parameter true "@" .value]
  | pieces => pieces

mutual

/-- Read pieces, which come in reverse, up to what ends a place. -/
def readPieces (nested : Reader (List Command)) (place : Place) : Nat → Word → Reader Word
  | 0, pieces => pure pieces
  | fuel + 1, pieces => do
    let isQuoted := place.isQuoted
    match (← get).rest, place with
    | [], place => place.missing?.elim (pure pieces) fail
    | '"' :: _, .quotes => pure pieces
    | '\x7d' :: _, .braces _ => pure pieces
    | '\\' :: '\n' :: _, _ =>
      skip 2
      readPieces nested place fuel pieces
    | '\\' :: c :: _, _ =>
      if place.escapes c then
        skip 2
        readPieces nested place fuel (pushOctet true c pieces)
      else
        advance
        readPieces nested place fuel (pushOctet true '\\' pieces)
    | '$' :: _, _ =>
      advance
      let piece ← readDollar nested isQuoted fuel
      readPieces nested place fuel (match piece with
        | some piece => piece :: pieces
        | none => pushOctet isQuoted '$' pieces)
    | '`' :: _, _ =>
      advance
      let text ← readBackquoted isQuoted fuel []
      let commands ← within text 1 nested
      readPieces nested place fuel (.output isQuoted commands :: pieces)
    | '"' :: _, .bare | '"' :: _, .braces _ =>
      advance
      let inner ← readPieces nested .quotes fuel [.text true []]
      let _ ← skipIf '"'
      readPieces nested place fuel (withoutMark inner ++ pieces)
    | '\'' :: _, .bare | '\'' :: _, .braces false =>
      advance
      let inner ← takeWhile (· ≠ '\'')
      if !(← skipIf '\'') then fail "Unterminated quoted string"
      readPieces nested place fuel (.text true inner :: pieces)
    | '(' :: _, .expression depth =>
      advance
      readPieces nested (.expression (depth + 1)) fuel (pushOctet true '(' pieces)
    | ')' :: _, .expression (depth + 1) =>
      advance
      readPieces nested (.expression depth) fuel (pushOctet true ')' pieces)
    | ')' :: ')' :: _, .expression 0 => pure pieces
    | c :: _, place =>
      if place = .bare && endsWord c then pure pieces
      else
        advance
        readPieces nested place fuel (pushOctet isQuoted c pieces)

/-- Read what stands behind a dollar sign, if that means anything. -/
def readDollar (nested : Reader (List Command)) (isQuoted : Bool) : Nat → Reader (Option Piece)
  | 0 => pure none
  | fuel + 1 => do
    match (← get).rest with
    | '(' :: '(' :: _ =>
      skip 2
      let expression ← readPieces nested (.expression 0) fuel []
      skip 2
      return some (.arithmetic isQuoted expression.reverse)
    | '(' :: _ =>
      advance
      return some (.output isQuoted (← readEnclosed nested))
    | '\x7b' :: _ =>
      advance
      return some (← readBraced nested isQuoted fuel)
    | c :: _ =>
      if startsName c then
        return some (.parameter isQuoted (.ofList (← takeWhile isNameOctet)) .value)
      else if isSpecialParameter c then
        advance
        return some (.parameter isQuoted (.singleton c) .value)
      else return none
    | [] => return none

/-- Read a parameter in braces, behind the first of them. -/
def readBraced (nested : Reader (List Command)) (isQuoted : Bool) : Nat → Reader Piece
  | 0 => fail "Missing '\x7d'"
  | fuel + 1 => do
    let word (isQuoted : Bool) : Reader Word :=
      List.reverse <$> readPieces nested (.braces isQuoted) fuel []
    let asksLength := match (← get).rest with
      | '#' :: c :: d :: _ =>
        startsName c || c.isDigit || (isSpecialParameter c && d = '\x7d')
      | _ => false
    if asksLength then advance
    let name ← readParameterName
    let evenEmpty ← match (← get).rest with
      | ':' :: c :: _ => if ['-', '=', '?', '+'].contains c then skipIf ':' else pure false
      | _ => pure false
    let use : Use ← match name, (← get).rest with
      | none, _ => do let _ ← word isQuoted; pure .invalid
      | some _, '\x7d' :: _ => pure (if asksLength then .length else .value)
      | some _, c :: rest =>
        if asksLength then do let _ ← word isQuoted; pure .invalid
        else match c with
          | '-' => do advance; pure (.orElse evenEmpty (← word isQuoted))
          | '=' => do advance; pure (.orAssign evenEmpty (← word isQuoted))
          | '?' => do advance; pure (.orFail evenEmpty (← word isQuoted))
          | '+' => do advance; pure (.andThen evenEmpty (← word isQuoted))
          | '%' | '#' => do
            let isLongest := rest.head? = some c
            skip (if isLongest then 2 else 1)
            pure (.without (c = '%') isLongest (← word false))
          | _ => do let _ ← word isQuoted; pure .invalid
      | some _, [] => pure .invalid
    if ← skipIf '\x7d' then return .parameter isQuoted (name.getD "") use
    else fail "Missing '\x7d'"

end

/-- How many bytes are left to read, and one more. -/
def fuelLeft : Reader Nat :=
  return (← get).rest.length + 1

/-- Read a word. -/
def readWord (nested : Reader (List Command)) : Reader Word := do
  return (← readPieces nested .bare (← fuelLeft) []).reverse

/-- The number of bytes up to the end of a line, where quotes may hide line feeds. -/
def lineLength : Option Char → Octets → Nat
  | _, [] => 0
  | none, '\\' :: _ :: rest => lineLength none rest + 2
  | some '"', '\\' :: _ :: rest => lineLength (some '"') rest + 2
  | none, c :: rest =>
    if c = '\n' then 0
    else lineLength (if c = '\'' || c = '"' then some c else none) rest + 1
  | some quote, c :: rest => lineLength (if c = quote then none else some quote) rest + 1

/-- Cut the lines of a here-document off lines that start with them. What comes behind its delimiter
is left, if that is found. -/
def cutDocument (delimiter : Octets) (stripsTabs : Bool) :
    List Octets → List Octets × Option (List Octets)
  | [] => ([], none)
  | line :: rest =>
    let line := if stripsTabs then line.dropWhile (· = '\t') else line
    if line = delimiter then ([], some rest)
    else
      let (body, after) := cutDocument delimiter stripsTabs rest
      (line :: body, after)

/-- Take the lines of a here-document out of the source behind the line at hand. -/
def takeDocument (delimiter : Octets) (stripsTabs : Bool) : Reader Octets := do
  let source ← get
  let line := source.rest.take (lineLength none source.rest)
  match source.rest.drop line.length with
  | [] => return []
  | _ :: below =>
    let (body, after) := cutDocument delimiter stripsTabs (splitAt '\n' below)
    let left := joinOctets ['\n'] (after.getD [])
    let countLines (text : Octets) := (text.filter (· = '\n')).length
    -- A delimiter ends a line even where the script ends with it.
    let ended := if after = some [] then 1 else 0
    set { source with
      rest := line ++ '\n' :: left
      taken := source.taken + (countLines below - countLines left) + ended }
    return if after.isSome then fromLines body else joinOctets ['\n'] body

/-- Whether a word has quotes. -/
def hasQuotes (word : Word) : Bool :=
  word.any fun piece => match piece with
    | .text isQuoted _ => isQuoted
    | _ => false

/-- The text of a word in which nothing is expanded. -/
def plainText (word : Word) : Octets :=
  word.flatMap fun piece => match piece with
    | .text _ octets => octets
    | _ => []

/-- Read the text of a here-document behind its delimiter. -/
def readDocument (nested : Reader (List Command)) (delimiter : Word) (stripsTabs : Bool) :
    Reader Word := do
  let source ← get
  let body ← takeDocument (plainText delimiter) stripsTabs
  if hasQuotes delimiter then return [.text true body]
  else
    within body (source.line + 1 + source.taken) do
      return (← readPieces nested .document (← fuelLeft) []).reverse

/-- Read the operator of a redirection. -/
def readRedirection : Reader String := do
  let operators := ["<<-", "<<", "<&", "<>", "<", ">>", ">&", ">|", ">"]
  let rest := (← get).rest
  match operators.find? fun operator => operator.toList.isPrefixOf rest with
  | some operator => do skip operator.length; return operator
  | none => return ""

/-- Skip blanks, joined lines and a comment. -/
def skipBlanks : Nat → Reader Unit
  | 0 => pure ()
  | fuel + 1 => do
    match (← get).rest with
    | ' ' :: _ | '\t' :: _ => do advance; skipBlanks fuel
    | '\\' :: '\n' :: _ => do skip 2; skipBlanks fuel
    | '#' :: _ => do let _ ← takeWhile (· ≠ '\n'); return
    | _ => return

/-- Read a token. -/
def readToken (nested : Reader (List Command)) : Reader Token := do
  skipBlanks (← fuelLeft)
  let operator (text : String) : Reader Token := do skip text.length; return .operator text
  match (← get).rest with
  | [] => return .endOfFile
  | '\n' :: _ => do advance; return .newline
  | '&' :: '&' :: _ => operator "&&"
  | '&' :: _ => operator "&"
  | '|' :: '|' :: _ => operator "||"
  | '|' :: _ => operator "|"
  | ';' :: ';' :: _ => operator ";;"
  | ';' :: _ => operator ";"
  | '(' :: _ => operator "("
  | ')' :: _ => operator ")"
  | '<' :: _ | '>' :: _ => return .redirect none (← readRedirection)
  | _ =>
    let word ← readWord nested
    let stands := (← get).rest.head?.any fun c => c = '<' || c = '>'
    match literal? word, stands with
    | some [c], true =>
      if c.isDigit then
        return .redirect (some (c.toNat - '0'.toNat)) (← readRedirection)
      else return .word word
    | _, _ => return .word word

end TerraStack.Shell
