import TerraStack.Shell.Regex
import TerraStack.Shell.Utility.Value

namespace TerraStack.Shell

open Run

/-- The regular expression that matches a text as it is. -/
def Regex.ofText (text : Octets) : Regex :=
  text.foldl (fun regex c => .sequence regex (.one (.octet c))) .empty

/-- The regular expression that matches what one of some does. -/
def Regex.ofAny : List Regex → Regex
  | [] => .one (.among false [])
  | [regex] => regex
  | regex :: rest => .either regex (.ofAny rest)

/-- Whether a match may count: whether it is a whole word or a whole line where that is asked for. -/
def isWantedMatch (options : Options) (found : Regex.Match) : Bool :=
  let isWord := !(found.start.before.head?.any Regex.isWordOctet)
    && !(found.finish.after.head?.any Regex.isWordOctet)
  let isLine := found.start.before.isEmpty && found.finish.after.isEmpty
  (!options.has 'w' || isWord) && (!options.has 'x' || isLine)

/-- What a pattern matches in a line, one match behind the other. -/
def allMatches (regex : Regex) (foldsCase : Bool) (isWanted : Regex.Match → Bool) :
    Nat → Octets → Octets → List Octets
  | 0, _, _ => []
  | fuel + 1, before, after =>
    match regex.findFrom? foldsCase isWanted before after with
    | none => []
    | some found =>
      let rest := found.finish
      if found.text.isEmpty then
        match rest.after with
        | [] => []
        | c :: more => allMatches regex foldsCase isWanted fuel (c :: rest.before) more
      else found.text :: allMatches regex foldsCase isWanted fuel rest.before rest.after

/-- What is written of a text in which lines are sought, and how many were found. -/
def searchText (options : Options) (regex : Regex) (name : Option Octets) (content : Octets) :
    Octets × Nat :=
  let foldsCase := options.has 'i' || options.has 'y'
  let isFound (line : Octets) : Bool :=
    (regex.findFrom? foldsCase (isWantedMatch options) [] line).isSome != options.has 'v'
  let found := ((octetLines content).zipIdx 1).filter fun (line, _) => isFound line
  let found := match (options.value? 'm').bind natOf? with
    | some limit => found.take limit
    | none => found
  let lead (number : Nat) : Octets :=
    name.elim [] (· ++ [':']) ++ if options.has 'n' then digitsOf number ++ [':'] else []
  let shown :=
    if options.has 'o' then
      if options.has 'v' then []
      else found.flatMap fun (line, number) =>
        (allMatches regex foldsCase (isWantedMatch options) (line.length + 1) [] line).map
          (lead number ++ ·)
    else found.map fun (line, number) => lead number ++ line
  (fromLines shown, found.length)

/-- Write the lines in which a pattern is found. -/
def searchLines (args : List Octets) : Run Nat :=
  withOptions "grep" "cvinqsoEFGwxlLhHay" "em" 2 args fun options => do
    let given := options.values.reverse.filterMap fun (letter, value) =>
      if letter = 'e' then some value else none
    let (patterns, paths) :=
      if given.isEmpty then (options.operands.take 1, options.operands.drop 1)
      else (given, options.operands)
    if patterns.isEmpty then
      warn "Usage: grep [OPTION]... PATTERNS [FILE]...\n".toList
      warn "Try 'grep --help' for more information.\n".toList
      return 2
    let read (text : Octets) : Except Regex.Error Regex :=
      if options.has 'F' then .ok (.ofText text) else Regex.read (options.has 'E') text
    match (patterns.flatMap (splitAt '\n')).mapM read with
    | .error error => do
      complainAs "grep" error.message.toList
      return 2
    | .ok regexes => do
      let hasNames := (1 < paths.length && !options.has 'h') || options.has 'H'
      let operands := if paths.isEmpty then [['-']] else paths
      let mut total := 0
      let mut isComplete := true
      for path in operands do
        match ← readPath path with
        | .error error => do
          isComplete := false
          if !options.has 's' then complainAs "grep" (path ++ ": ".toList ++ error.message.toList)
        | .ok content =>
          let label := if path = ['-'] then "(standard input)".toList else path
          let name := if hasNames then some label else none
          let (shown, count) := searchText options (.ofAny regexes) name content
          if options.has 'q' then pure ()
          else if options.has 'l' || options.has 'L' then
            if (count ≠ 0) = options.has 'l' then say (label ++ ['\n'])
          else if options.has 'c' then
            say (name.elim [] (· ++ [':']) ++ digitsOf count ++ ['\n'])
          else say shown
          total := total + count
      return if total ≠ 0 && (isComplete || options.has 'q') then 0
        else if isComplete then 1 else 2

/-- The value of a text as an integer. -/
def expressionNumber (text : Octets) : Except String Int :=
  let digits := if text.head? = some '-' then text.drop 1 else text
  match natOf? digits with
  | some n => .ok (if text.head? = some '-' then -n else n)
  | none => .error "non-integer argument"

/-- What a pattern matches at the start of a text: the first group, or else how much is matched. -/
def matchAtStart (text pattern : Octets) : Except String Octets :=
  match Regex.read false pattern with
  | .error error => .error error.message
  | .ok regex =>
    let hasGroup := (splitAt '\\' pattern).any fun part => part.head? = some '('
    match regex.matchAt? false { before := [], after := text } with
    | some found => .ok (if hasGroup then found.group 1 else digitsOf found.text.length)
    | none => .ok (if hasGroup then [] else ['0'])

/-- Whether a value counts as false. -/
def isNull (value : Octets) : Bool :=
  value.isEmpty || value.all (· = '0') || value = ['-', '0']

/-- What an operator makes of two values. -/
def combineValues (operator : String) (left right : Octets) : Except String Octets := do
  let calculate (result : Int → Int → Int) : Except String Octets := do
    return digitsOf (result (← expressionNumber left) (← expressionNumber right))
  let isCompared (holds : Ordering → Bool) : Except String Octets :=
    let order := match expressionNumber left, expressionNumber right with
      | .ok a, .ok b => compare a b
      | _, _ => compare (String.ofList left) (String.ofList right)
    .ok (if holds order then ['1'] else ['0'])
  match operator with
  | "|" => return if !isNull left then left else if !isNull right then right else ['0']
  | "&" => return if isNull left || isNull right then ['0'] else left
  | "=" | "==" => isCompared (· == .eq)
  | "!=" => isCompared (· != .eq)
  | "<" => isCompared (· == .lt)
  | "<=" => isCompared (·.isLE)
  | ">" => isCompared (· == .gt)
  | ">=" => isCompared (·.isGE)
  | "+" => calculate (· + ·)
  | "-" => calculate (· - ·)
  | "*" => calculate (· * ·)
  | "/" | "%" =>
    let _ ← expressionNumber left
    if (← expressionNumber right) = 0 then .error "division by zero"
    else if operator = "/" then calculate Int.tdiv
    else calculate Int.tmod
  | _ => matchAtStart left right

/-- How tightly an operator binds. -/
def expressionBinding? (operator : Octets) : Option Nat :=
  [("|", 1), ("&", 2), ("=", 3), ("==", 3), ("!=", 3), ("<", 3), ("<=", 3), (">", 3), (">=", 3),
    ("+", 4), ("-", 4), ("*", 5), ("/", 5), ("%", 5), (":", 6)].lookup (String.ofList operator)

mutual

/-- The value of operands with operators that bind at least so tightly between them. -/
def evaluateWords : Nat → Nat → Option Octets → List Octets → Except String (Octets × List Octets)
  | 0, _, _, _ => .error "syntax error"
  | fuel + 1, binding, before, words => do
    let (value, rest) ← evaluateOperand fuel before words
    continueWords fuel binding value rest

/-- The value of a value with what follows it. -/
def continueWords : Nat → Nat → Octets → List Octets → Except String (Octets × List Octets)
  | 0, _, value, words => .ok (value, words)
  | fuel + 1, binding, value, words => do
    match words with
    | operator :: rest =>
      match expressionBinding? operator with
      | some found =>
        if found < binding then return (value, words)
        else
          let (right, rest) ← evaluateWords fuel (found + 1) (some operator) rest
          continueWords fuel binding (← combineValues (.ofList operator) value right) rest
      | none => return (value, words)
    | [] => return (value, [])

/-- The value of an operand. -/
def evaluateOperand : Nat → Option Octets → List Octets → Except String (Octets × List Octets)
  | 0, _, _ => .error "syntax error"
  | fuel + 1, before, words => do
    match words with
    | [] =>
      match before with
      | some word => .error (String.ofList ("syntax error: missing argument after ".toList ++ quoted word))
      | none => .error "missing operand"
    | ['('] :: rest =>
      let (value, rest) ← evaluateWords fuel 1 (some ['(']) rest
      match rest with
      | [')'] :: rest => return (value, rest)
      | [] => .error (String.ofList ("syntax error: expecting ')' after ".toList ++ quoted value))
      | word :: _ =>
        .error (String.ofList ("syntax error: expecting ')' instead of ".toList ++ quoted word))
    | [')'] :: _ => .error "syntax error: unexpected ')'"
    | word :: rest =>
      let next (words : List Octets) := evaluateOperand fuel (some word) words
      match String.ofList word with
      | "+" => match rest with
        | word :: rest => return (word, rest)
        | [] => next []
      | "length" =>
        let (value, rest) ← next rest
        return (digitsOf value.length, rest)
      | "match" =>
        let (value, rest) ← next rest
        let (pattern, rest) ← next rest
        return (← matchAtStart value pattern, rest)
      | "index" =>
        let (value, rest) ← next rest
        let (sought, rest) ← next rest
        let place := (value.findIdx? sought.contains).elim 0 (· + 1)
        return (digitsOf place, rest)
      | "substr" =>
        let (value, rest) ← next rest
        let (first, rest) ← next rest
        let (count, rest) ← next rest
        match expressionNumber first, expressionNumber count with
        | .ok first, .ok count =>
          if first < 1 || count < 1 then return ([], rest)
          else return ((value.drop (first.toNat - 1)).take count.toNat, rest)
        | _, _ => return ([], rest)
      | _ => return (word, rest)

end

/-- Write the value of an expression. -/
def evaluateExpression (args : List Octets) : Run Nat := do
  match evaluateWords (4 * args.length + 4) 1 none args with
  | .error reason => do
    complainAs "expr" reason.toList
    if args.isEmpty then warn "Try 'expr --help' for more information.\n".toList
    return 2
  | .ok (_, word :: _) => do
    complainAs "expr" ("syntax error: unexpected argument ".toList ++ quoted word)
    return 2
  | .ok (value, []) => do
    say (value ++ ['\n'])
    return if isNull value then 1 else 0

/-- Utilities that look for patterns, with their names. -/
def searchUtilities : List (String × Utility) := [
  ("grep", searchLines),
  ("egrep", fun args => searchLines (['-', 'E'] :: args)),
  ("fgrep", fun args => searchLines (['-', 'F'] :: args)),
  ("expr", evaluateExpression)]

end TerraStack.Shell
