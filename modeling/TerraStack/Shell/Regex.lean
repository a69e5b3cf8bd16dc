import TerraStack.Shell.Pattern

namespace TerraStack.Shell

/-- A regular expression. -/
inductive Regex where
  | empty
  | one (matcher : Matcher)
  | lineStart
  | lineEnd
  /-- The border between a word and what is none; at the start of the word, at its end, or either. -/
  | wordBorder (atStart atEnd : Bool)
  | sequence (first second : Regex)
  | either (first second : Regex)
  | repeated (body : Regex) (least : Nat) (greatest : Option Nat)
  | group (index : Nat) (body : Regex)
  /-- What a group has matched. -/
  | again (index : Nat)
  deriving Repr

/-- A word of a regular expression. There are two ways of writing them, in which the same operators
are plain or stand behind a backslash. -/
inductive RegexToken where
  | one (matcher : Matcher)
  | lineStart
  | lineEnd
  | wordBorder (atStart atEnd : Bool)
  | opening
  | closing
  | bar
  | times (least : Nat) (greatest : Option Nat)
  | again (index : Nat)
  deriving Repr

namespace Regex

/-- The bytes of words, and those of blanks. -/
def wordRanges : List (Char × Char) :=
  classRanges "alnum" ++ [('_', '_')]

/-- Read what stands in brackets. -/
def readSet? (text : Octets) : Option (Matcher × Octets) :=
  let marks := text.map fun c => (⟨c, false⟩ : Mark)
  let isNegated := text.head? = some '^'
  let marks := if isNegated then marks.drop 1 else marks
  (readRanges? true (marks.length + 1) marks).map fun (ranges, after) =>
    (.among isNegated ranges, after.map Mark.octet)

/-- Read how often something is repeated, up to the brace behind it. -/
def readTimes? (close : Octets) (text : Octets) : Option (RegexToken × Octets) :=
  let least := text.takeWhile Char.isDigit
  let rest := text.drop least.length
  let ended (token : RegexToken) (rest : Octets) : Option (RegexToken × Octets) :=
    if close.isPrefixOf rest then some (token, rest.drop close.length) else none
  match rest with
  | ',' :: rest =>
    let greatest := rest.takeWhile Char.isDigit
    ended (.times ((natOf? least).getD 0) (natOf? greatest)) (rest.drop greatest.length)
  | rest => (natOf? least).bind fun count => ended (.times count (some count)) rest

/-- Why a text is no regular expression. -/
inductive Error where
  | bracket
  | brace
  | parenthesis
  | trailingBackslash
  | backReference
  deriving Repr, DecidableEq

/-- The text of an error. -/
def Error.message : Error → String
  | .bracket => "Unmatched [, [^, [:, [., or [="
  | .brace => "Unmatched \\\x7b"
  | .parenthesis => "Unmatched ( or \\("
  | .trailingBackslash => "Trailing backslash"
  | .backReference => "Invalid back reference"

/-- The token behind a backslash that means the same in both ways of writing. -/
def escapedToken (c : Char) : RegexToken :=
  match c with
  | 'w' => .one (.among false wordRanges)
  | 'W' => .one (.among true wordRanges)
  | 's' => .one (.among false (classRanges "space"))
  | 'S' => .one (.among true (classRanges "space"))
  | 'b' => .wordBorder true true
  | '<' => .wordBorder true false
  | '>' => .wordBorder false true
  | 'n' => .one (.octet '\n')
  | 't' => .one (.octet '\t')
  | c =>
    if '1' ≤ c ∧ c ≤ '9' then .again (c.toNat - '0'.toNat) else .one (.octet c)

/-- The operator that a byte is behind a backslash, or without one in the extended way. -/
def operatorToken? (c : Char) : Option RegexToken :=
  match c with
  | '(' => some .opening
  | ')' => some .closing
  | '|' => some .bar
  | '+' => some (.times 1 none)
  | '?' => some (.times 0 (some 1))
  | _ => none

/-- Whether an operand may start here, so that what repeats would have nothing to repeat. -/
def isOpen : Option RegexToken → Bool
  | none | some .opening | some .bar | some .lineStart => true
  | _ => false

/-- Cut a regular expression into tokens. The token before is known. -/
def tokens (isExtended : Bool) :
    Nat → Option RegexToken → Octets → Except Error (List RegexToken)
  | 0, _, _ => .ok []
  | _, _, [] => .ok []
  | fuel + 1, before, c :: rest =>
    let add (token : RegexToken) (rest : Octets) : Except Error (List RegexToken) :=
      (token :: ·) <$> tokens isExtended fuel (some token) rest
    let plain := add (.one (.octet c)) rest
    let close : Octets := if isExtended then ['\x7d'] else ['\\', '\x7d']
    let endsHere := isExtended || rest.isEmpty || ['\\', ')'].isPrefixOf rest
      || ['\\', '|'].isPrefixOf rest
    match c, rest with
    | '\\', [] => .error .trailingBackslash
    | '\\', d :: rest =>
      if isExtended then add (escapedToken d) rest
      else if d = '\x7b' then
        match readTimes? close rest with
        | some (token, after) => add token after
        | none => .error .brace
      else add ((operatorToken? d).getD (escapedToken d)) rest
    | '.', rest => add (.one .one) rest
    | '[', rest =>
      match readSet? rest with
      | some (matcher, after) => add (.one matcher) after
      | none => .error .bracket
    | '*', rest =>
      if isOpen before then (if isExtended then tokens isExtended fuel before rest else plain)
      else add (.times 0 none) rest
    | '^', rest => if isExtended || isOpen before then add .lineStart rest else plain
    | '$', rest => if endsHere then add .lineEnd rest else plain
    | '\x7b', rest =>
      match if isExtended && !isOpen before then readTimes? close rest else none with
      | some (token, after) => add token after
      | none => plain
    | c, rest =>
      match if isExtended then operatorToken? c else none with
      | some token => add token rest
      | none => plain

mutual

/-- Read alternatives. The number of groups before is counted. -/
def readEither : Nat → Nat → List RegexToken → Regex × Nat × List RegexToken
  | 0, groups, tokens => (.empty, groups, tokens)
  | fuel + 1, groups, tokens =>
    let (first, groups, rest) := readSequence fuel groups .empty tokens
    match rest with
    | .bar :: rest =>
      let (second, groups, rest) := readEither fuel groups rest
      (.either first second, groups, rest)
    | rest => (first, groups, rest)

/-- Read operands one after another, behind what is read already. -/
def readSequence : Nat → Nat → Regex → List RegexToken → Regex × Nat × List RegexToken
  | 0, groups, done, tokens => (done, groups, tokens)
  | fuel + 1, groups, done, tokens =>
    match tokens with
    | [] | .bar :: _ | .closing :: _ => (done, groups, tokens)
    | token :: rest =>
      let (operand, groups, rest) := match token with
        | .one matcher => (.one matcher, groups, rest)
        | .lineStart => (.lineStart, groups, rest)
        | .lineEnd => (.lineEnd, groups, rest)
        | .wordBorder atStart atEnd => (.wordBorder atStart atEnd, groups, rest)
        | .again index => (.again index, groups, rest)
        | .opening =>
          let index := groups + 1
          let (body, groups, rest) := readEither fuel index rest
          (.group index body, groups, rest.drop 1)
        | _ => (.empty, groups, rest)
      let (operand, rest) := readRepeats fuel operand rest
      readSequence fuel groups (.sequence done operand) rest

/-- Read how often an operand is repeated. -/
def readRepeats : Nat → Regex → List RegexToken → Regex × List RegexToken
  | 0, operand, tokens => (operand, tokens)
  | fuel + 1, operand, tokens =>
    match tokens with
    | .times least greatest :: rest => readRepeats fuel (.repeated operand least greatest) rest
    | tokens => (operand, tokens)

end

/-- Whether every parenthesis has its other half. -/
def isBalanced : Nat → List RegexToken → Bool
  | depth, [] => depth = 0
  | depth, .opening :: rest => isBalanced (depth + 1) rest
  | depth + 1, .closing :: rest => isBalanced depth rest
  | 0, .closing :: _ => false
  | depth, _ :: rest => isBalanced depth rest

/-- The regular expression that a text spells. -/
def read (isExtended : Bool) (text : Octets) : Except Error Regex := do
  let tokens ← tokens isExtended (text.length + 1) none text
  if !isBalanced 0 tokens then .error .parenthesis
  else return (readEither (3 * tokens.length + 3) 0 tokens).1

/-- A place in a text, and what groups have matched on the way to it. -/
structure State where
  /-- What is in front of the place, in reverse. -/
  before : Octets
  after : Octets
  groups : List (Nat × Octets) := []
  deriving Repr, DecidableEq

/-- Repeat steps, as often as may be first. A step beyond the least number has to lead on. -/
def repeatSteps (step : State → List State) : Nat → Nat → Option Nat → State → List State
  | 0, least, _, state => if least = 0 then [state] else []
  | fuel + 1, least, greatest, state =>
    let next := if greatest = some 0 then [] else
      (step state).filter fun next => 0 < least || next.after.length < state.after.length
    let far := next.flatMap (repeatSteps step fuel (least - 1) (greatest.map (· - 1)))
    let here := if least = 0 then [state] else []
    (far ++ here).eraseDups

/-- Step over some bytes. -/
def State.over (state : State) (count : Nat) : State :=
  { state with
    before := (state.after.take count).reverse ++ state.before
    after := state.after.drop count }

/-- Whether a byte belongs to a word. -/
def isWordOctet (c : Char) : Bool :=
  wordRanges.any fun (least, greatest) => least ≤ c && c ≤ greatest

/-- The places to which a regular expression leads from a place. -/
def run (foldsCase : Bool) : Regex → State → List State
  | .empty, state => [state]
  | .one matcher, state =>
    match state.after with
    | [] => []
    | c :: _ =>
      let isAccepted := matcher.accepts c
        || (foldsCase && (matcher.accepts c.toLower || matcher.accepts c.toUpper))
      if isAccepted then [state.over 1] else []
  | .lineStart, state => if state.before.isEmpty then [state] else []
  | .lineEnd, state => if state.after.isEmpty then [state] else []
  | .wordBorder atStart atEnd, state =>
    let isBefore := state.before.head?.any isWordOctet
    let isAfter := state.after.head?.any isWordOctet
    if (atStart && !isBefore && isAfter) || (atEnd && isBefore && !isAfter) then [state] else []
  | .sequence first second, state =>
    ((first.run foldsCase state).flatMap (second.run foldsCase)).eraseDups
  | .either first second, state => first.run foldsCase state ++ second.run foldsCase state
  | .repeated body least greatest, state =>
    repeatSteps (body.run foldsCase) (state.after.length + least + 1) least greatest state
  | .group index body, state =>
    (body.run foldsCase state).map fun next =>
      let matched := state.after.take (state.after.length - next.after.length)
      { next with groups := (index, matched) :: next.groups.filter (·.1 ≠ index) }
  | .again index, state =>
    let matched := (state.groups.lookup index).getD []
    if matched.isPrefixOf state.after then [state.over matched.length] else []

/-- A match: the place at which it starts and that at which it ends. -/
structure Match where
  start : State
  finish : State

namespace Match

/-- What is matched. -/
def text (found : Match) : Octets :=
  found.start.after.take (found.start.after.length - found.finish.after.length)

/-- What a group has matched. The group with the number zero is the whole. -/
def group (found : Match) (index : Nat) : Octets :=
  if index = 0 then found.text else (found.finish.groups.lookup index).getD []

end Match

/-- The longest match that starts at a place. -/
def matchAt? (regex : Regex) (foldsCase : Bool) (state : State) : Option Match :=
  let finishes := regex.run foldsCase state
  let longest := finishes.foldl (fun best next => match best with
    | none => some next
    | some best => if next.after.length < best.after.length then some next else some best) none
  longest.map fun finish => { start := state, finish }

/-- The first match that starts at a place or behind it. Of the matches that start at one place the
longest counts. -/
def findFrom? (regex : Regex) (foldsCase : Bool) (isWanted : Match → Bool) :
    Octets → Octets → Option Match
  | before, after =>
    match (regex.matchAt? foldsCase { before, after }).filter isWanted with
    | some found => some found
    | none => match after with
      | [] => none
      | c :: rest => findFrom? regex foldsCase isWanted (c :: before) rest
termination_by _ after => after.length

/-- The first match in a text. -/
def find? (regex : Regex) (foldsCase : Bool) (text : Octets) : Option Match :=
  regex.findFrom? foldsCase (fun _ => true) [] text

end Regex
end TerraStack.Shell
