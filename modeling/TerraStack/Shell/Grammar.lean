import TerraStack.Shell.Word

namespace TerraStack.Shell

open Reader

/-- What may end a list of commands. -/
def Token.endsList (token : Token) : Bool :=
  match token with
  | .endOfFile | .operator ")" | .operator ";;" => true
  | token => token.keyword?.any
    ["do", "done", "elif", "else", "esac", "fi", "then", "\x7d"].contains

/-- The name and the value of a word that sets a variable. -/
def assignment? : Word → Option (String × Word)
  | .text false octets :: rest =>
    let name := octets.takeWhile isNameOctet
    match octets.dropWhile isNameOctet with
    | '=' :: value =>
      if isName name then some (.ofList name, if value.isEmpty then rest else .text false value :: rest)
      else none
    | _ => none
  | _ => none

/-- The commands of the shell that belong to its language, so that no function can have their name. -/
def specialBuiltins : List String :=
  [".", ":", "break", "continue", "eval", "exec", "exit", "export", "local", "readonly", "return",
    "set", "shift", "times", "trap", "unset"]

/-- The parts of a simple command, each in reverse. -/
structure SimpleParts where
  assignments : List (String × Word) := []
  words : List Word := []
  redirects : List Redirect := []

section Tokens

variable (nested : Reader (List Command))

/-- Look at the next token. -/
def peekToken : Reader Token := do
  match (← get).ahead with
  | some token => return token
  | none =>
    let token ← readToken nested
    modify fun source => { source with ahead := some token }
    return token

/-- Drop the token that was looked at. -/
def dropToken : Reader Unit :=
  modify fun source => { source with ahead := none }

/-- Drop line ends. -/
def skipNewlines : Nat → Reader Unit
  | 0 => pure ()
  | fuel + 1 => do
    match ← peekToken nested with
    | .newline => do dropToken; skipNewlines fuel
    | _ => return

/-- Drop an operator if it is the next token. -/
def dropOperator (text : String) : Reader Bool := do
  match ← peekToken nested with
  | .operator other =>
    if other = text then
      dropToken
      return true
    else return false
  | _ => return false

/-- Drop the keyword that has to come next. -/
def expectKeyword (keyword : String) : Reader Unit := do
  let token ← peekToken nested
  if token.keyword? = some keyword then dropToken else refuse token (some keyword)

/-- Read the word that has to come next. -/
def expectWord : Reader Word := do
  match ← peekToken nested with
  | .word word => do dropToken; return word
  | token => refuse token none

/-- Read what stands behind the operator of a redirection. -/
def readRedirect (descriptor : Option Nat) (operator : String) : Reader Redirect := do
  let input := descriptor.getD 0
  let output := descriptor.getD 1
  let word ← expectWord nested
  match operator with
  | "<" => return .file input .read word
  | "<>" => return .file input .readWrite word
  | "<&" => return .duplicate input word
  | ">&" => return .duplicate output word
  | ">>" => return .file output .append word
  | "<<" => return .document input (← readDocument nested word false)
  | "<<-" => return .document input (← readDocument nested word true)
  | ">|" => return .file output .replace word
  | _ => return .file output .write word

/-- Read the redirections behind a command. -/
def readRedirects : Nat → Reader (List Redirect)
  | 0 => pure []
  | fuel + 1 => do
    match ← peekToken nested with
    | .redirect descriptor operator =>
      dropToken
      let redirect ← readRedirect nested descriptor operator
      return redirect :: (← readRedirects fuel)
    | _ => return []

/-- Read words. -/
def readWords : Nat → Reader (List Word)
  | 0 => pure []
  | fuel + 1 => do
    match ← peekToken nested with
    | .word word => do dropToken; return word :: (← readWords fuel)
    | _ => return []

/-- Read the parts of a simple command. -/
def readParts : Nat → SimpleParts → Reader SimpleParts
  | 0, parts => pure parts
  | fuel + 1, parts => do
    match ← peekToken nested with
    | .redirect descriptor operator =>
      dropToken
      let redirect ← readRedirect nested descriptor operator
      readParts fuel { parts with redirects := redirect :: parts.redirects }
    | .word word =>
      dropToken
      match assignment? word with
      | some assignment =>
        if parts.words.isEmpty then
          readParts fuel { parts with assignments := assignment :: parts.assignments }
        else readParts fuel { parts with words := word :: parts.words }
      | none => readParts fuel { parts with words := word :: parts.words }
    | _ => return parts

/-- Read the patterns of a branch. -/
def readPatterns : Nat → Reader (List Word)
  | 0 => pure []
  | fuel + 1 => do
    let word ← match ← peekToken nested with
      | .word word => do dropToken; pure word
      | .endOfFile => refuse .endOfFile (some ")")
      | _ => do dropToken; pure []
    if ← dropOperator nested "|" then return word :: (← readPatterns fuel)
    else if ← dropOperator nested ")" then return [word]
    else refuse (← peekToken nested).asOperand (some ")")

end Tokens

mutual

/-- Read commands up to what ends a list. -/
def readList : Nat → Bool → Reader (List Command)
  | 0, _ => pure []
  | fuel + 1, mayBeEmpty => do
    let nested := readList fuel true
    skipNewlines nested (← fuelLeft)
    let token ← peekToken nested
    let isEnd := match token with
      | .endOfFile => true
      | _ => false
    if isEnd || (mayBeEmpty && token.endsList) then return []
    else
      let command ← readLinks fuel
      match ← peekToken nested with
      | .operator "&" =>
        dropToken
        return .background command :: (← readList fuel true)
      | .operator ";" =>
        dropToken
        return command :: (← readList fuel true)
      | .newline => return command :: (← readList fuel true)
      | _ => return [command]

/-- Read commands joined by `&&` and `||`. -/
def readLinks : Nat → Reader Command
  | 0 => fail "end of file unexpected"
  | fuel + 1 => do readMoreLinks fuel (← readPipeline fuel)

/-- Read what is joined to a command. -/
def readMoreLinks : Nat → Command → Reader Command
  | 0, command => pure command
  | fuel + 1, command => do
    let nested := readList fuel true
    if ← dropOperator nested "&&" then
      skipNewlines nested (← fuelLeft)
      readMoreLinks fuel (.both command (← readPipeline fuel))
    else if ← dropOperator nested "||" then
      skipNewlines nested (← fuelLeft)
      readMoreLinks fuel (.either command (← readPipeline fuel))
    else return command

/-- Read commands joined by `|`. -/
def readPipeline : Nat → Reader Command
  | 0 => fail "end of file unexpected"
  | fuel + 1 => do
    let nested := readList fuel true
    let isNegated := (← peekToken nested).keyword? = some "!"
    if isNegated then dropToken
    let first ← readCommand fuel
    let others ← readPipes fuel
    let command := if others.isEmpty then first else .pipeline (first :: others)
    return if isNegated then .unless command else command

/-- Read the commands behind the first of a pipeline. -/
def readPipes : Nat → Reader (List Command)
  | 0 => pure []
  | fuel + 1 => do
    let nested := readList fuel true
    if ← dropOperator nested "|" then
      skipNewlines nested (← fuelLeft)
      let command ← readCommand fuel
      return command :: (← readPipes fuel)
    else return []

/-- Read one command. -/
def readCommand : Nat → Reader Command
  | 0 => fail "end of file unexpected"
  | fuel + 1 => do
    let nested := readList fuel true
    let line := (← get).line
    let closed (keyword : String) (command : Command) : Reader Command := do
      expectKeyword nested keyword
      return command
    let token ← peekToken nested
    let compound? : Option Command ← match token, token.keyword? with
      | _, some "if" => do dropToken; some <$> readChoice fuel
      | _, some "while" => do dropToken; some <$> readLoop fuel false
      | _, some "until" => do dropToken; some <$> readLoop fuel true
      | _, some "for" => do dropToken; some <$> readEach fuel
      | _, some "case" => do
        dropToken
        let subject ← match ← peekToken nested with
          | .word word => do dropToken; pure word
          | token => refuse token (some "word")
        skipNewlines nested (← fuelLeft)
        expectKeyword nested "in"
        some <$> (.select subject) <$> readBranches fuel
      | _, some "\x7b" => do
        dropToken
        some <$> closed "\x7d" (.group (← readList fuel false))
      | .operator "(", _ => do
        dropToken
        let commands ← readList fuel false
        if ← dropOperator nested ")" then pure (some (.isolated commands))
        else refuse (← peekToken nested) (some ")")
      | .word _, none | .redirect .., _ => pure none
      | token, _ => refuse token none
    match compound? with
    | some command =>
      let redirects ← readRedirects nested (← fuelLeft)
      return if redirects.isEmpty then command else .redirected line command redirects
    | none =>
      let parts ← readParts nested (← fuelLeft) {}
      let mayBeFunction :=
        parts.words.length = 1 && parts.assignments.isEmpty && parts.redirects.isEmpty
      let isFunction ← if mayBeFunction then dropOperator nested "(" else pure false
      if isFunction then
        readFunction fuel (parts.words.headD [])
      else
        return .simple line parts.assignments.reverse parts.words.reverse parts.redirects.reverse

/-- Read a function behind its name and the first parenthesis. -/
def readFunction : Nat → Word → Reader Command
  | 0, _ => fail "end of file unexpected"
  | fuel + 1, name => do
    let nested := readList fuel true
    if !(← dropOperator nested ")") then refuse (← peekToken nested).asOperand (some ")")
    match (literal? name).map String.ofList with
    | some name =>
      if !isName name.toList || specialBuiltins.contains name then fail "Bad function name"
      skipNewlines nested (← fuelLeft)
      return .define name (← readCommand fuel)
    | none => fail "Bad function name"

/-- Read a choice behind its first word. -/
def readChoice : Nat → Reader Command
  | 0 => fail "end of file unexpected"
  | fuel + 1 => do
    let nested := readList fuel true
    let condition ← readList fuel false
    expectKeyword nested "then"
    let body ← readList fuel false
    let token ← peekToken nested
    match token.keyword? with
    | some "elif" =>
      dropToken
      return .choose condition body [← readChoice fuel]
    | some "else" =>
      dropToken
      let otherwise ← readList fuel false
      expectKeyword nested "fi"
      return .choose condition body otherwise
    | _ =>
      expectKeyword nested "fi"
      return .choose condition body []

/-- Read a loop behind its first word. -/
def readLoop : Nat → Bool → Reader Command
  | 0, _ => fail "end of file unexpected"
  | fuel + 1, whileFailing => do
    let nested := readList fuel true
    let condition ← readList fuel false
    expectKeyword nested "do"
    let body ← readList fuel false
    expectKeyword nested "done"
    return .loop whileFailing condition body

/-- Read a loop over words behind its first word. -/
def readEach : Nat → Reader Command
  | 0 => fail "end of file unexpected"
  | fuel + 1 => do
    let nested := readList fuel true
    let name ← match ← peekToken nested with
      | .word word =>
        match (literal? word).filter isName with
        | some name => do dropToken; pure (String.ofList name)
        | none => fail "Bad for loop variable"
      | _ => fail "Bad for loop variable"
    skipNewlines nested (← fuelLeft)
    let words : Option (List Word) ←
      if (← peekToken nested).keyword? = some "in" then do
        dropToken
        let words ← readWords nested (← fuelLeft)
        match ← peekToken nested with
        | .operator ";" | .newline => dropToken
        | token => refuse token none
        pure (some words)
      else do
        let _ ← dropOperator nested ";"
        pure none
    skipNewlines nested (← fuelLeft)
    expectKeyword nested "do"
    let body ← readList fuel false
    expectKeyword nested "done"
    return .each name words body

/-- Read the branches of a selection up to its end. -/
def readBranches : Nat → Reader (List (List Word × List Command))
  | 0 => pure []
  | fuel + 1 => do
    let nested := readList fuel true
    skipNewlines nested (← fuelLeft)
    if (← peekToken nested).keyword? = some "esac" then
      dropToken
      return []
    else
      let _ ← dropOperator nested "("
      let patterns ← readPatterns nested (← fuelLeft)
      let body ← readList fuel true
      if ← dropOperator nested ";;" then
        return (patterns, body) :: (← readBranches fuel)
      else
        let token ← peekToken nested
        if token.keyword? ≠ some "esac" then refuse token (some ";;")
        dropToken
        return [(patterns, body)]

end

/-- Read the commands of a line up to its end. -/
def readLine (fuel : Nat) : Nat → Reader (List Command)
  | 0 => pure []
  | steps + 1 => do
    let nested := readList fuel true
    match ← peekToken nested with
    | .newline => do dropToken; return []
    | .endOfFile => return []
    | _ =>
      let command ← readLinks fuel
      match ← peekToken nested with
      | .operator "&" =>
        dropToken
        return .background command :: (← readLine fuel steps)
      | .operator ";" =>
        dropToken
        return command :: (← readLine fuel steps)
      | .newline => do dropToken; return [command]
      | .endOfFile => return [command]
      | token => refuse token none

/-- Read lines up to the end of a script or its first fault. A line is run before the next one is
looked at, so a fault does not undo the lines before it, and it does undo its own. -/
def Script.readLines (fuel : Nat) : Nat → Source → Script
  | 0, _ => {}
  | steps + 1, source =>
    match (readLine fuel fuel).run source with
    | .error fault => { fault := some fault }
    | .ok (commands, after) =>
      let isAtEnd := after.rest.isEmpty && (match after.ahead with
        | none | some .endOfFile => true
        | _ => false)
      if isAtEnd then { lines := [(commands, after.line)] }
      else
        let script := readLines fuel steps after
        { script with lines := (commands, after.line) :: script.lines }

/-- The script that a text spells. Every step of reading takes a byte off the text or goes down into
a part of it through a dozen readers at most. -/
def Script.read (text : Octets) : Script :=
  let fuel := 12 * text.length + 12
  readLines fuel (text.length + 1) { rest := text }

end TerraStack.Shell
