import TerraStack.Shell.Arithmetic
import TerraStack.FileSystem

namespace TerraStack.Shell

/-- What a word of a condition is. -/
inductive ConditionToken where
  | operand
  | unary (operator : String)
  | binary (operator : String)
  | not
  | and
  | or
  | opening
  | closing
  | ending
  deriving Repr, DecidableEq

/-- The operator that a word may be. -/
def conditionOperator? (word : Octets) : Option ConditionToken :=
  let text := String.ofList word
  if ["-r", "-w", "-x", "-e", "-f", "-d", "-c", "-b", "-p", "-u", "-g", "-k", "-s", "-t", "-z", "-n",
    "-h", "-O", "-G", "-L", "-S"].contains text then some (.unary text)
  else if ["=", "!=", "<", ">", "-eq", "-ne", "-ge", "-gt", "-le", "-lt", "-nt", "-ot",
    "-ef"].contains text then some (.binary text)
  else [("!", .not), ("-a", .and), ("-o", .or), ("(", .opening), (")", .closing)].lookup text

/-- What the first of some words is in its place. -/
def conditionToken (words : List Octets) : ConditionToken :=
  match words with
  | [] => .ending
  | word :: rest =>
    match conditionOperator? word with
    | some (.unary operator) =>
      let isOperand := match rest with
        | [] => true
        | [_] => false
        | next :: _ => match conditionOperator? next with
          | some (.binary _) => true
          | _ => false
      if isOperand then .operand else .unary operator
    | some .opening => if rest.isEmpty then .operand else .opening
    | some token => token
    | none => .operand

/-- The integer that an operand denotes. -/
def conditionNumber (word : Octets) : Except String Int :=
  (readInteger? 10 word).elim (.error ("Illegal number: " ++ .ofList word)) .ok

/-- What an operator says of a path. -/
def checkPath (files : FileSystem) (operator : String) (path : Octets) : Bool :=
  let path := textOf path
  match files.lookup? path with
  | none => false
  | some entry =>
    match operator with
    | "-e" | "-r" | "-w" | "-O" | "-G" => true
    | "-d" => entry = .directory
    | "-f" => entry ≠ .directory && entry ≠ .sink
    | "-c" => entry = .sink
    | "-s" => entry = .directory || entry.size ≠ 0
    | "-x" => entry = .directory || (files.locate path).toOption.any files.programs.contains
    | _ => false

/-- What an operator says of a word. -/
def checkUnary (files : FileSystem) (operator : String) (word : Octets) : Except String Bool :=
  match operator with
  | "-z" => .ok word.isEmpty
  | "-n" => .ok !word.isEmpty
  | "-t" => (conditionNumber word).map fun _ => false
  | _ => .ok (checkPath files operator word)

/-- Whether bytes come before others. -/
def isBefore (left right : Octets) : Bool :=
  String.ofList left < String.ofList right

/-- What an operator says of two words. -/
def checkBinary (files : FileSystem) (operator : String) (left right : Octets) :
    Except String Bool := do
  let compare (holds : Int → Int → Bool) : Except String Bool := do
    return holds (← conditionNumber left) (← conditionNumber right)
  match operator with
  | "=" => return left = right
  | "!=" => return left ≠ right
  | "<" => return isBefore left right
  | ">" => return isBefore right left
  | "-eq" => compare (· == ·)
  | "-ne" => compare (· != ·)
  | "-ge" => compare (· ≥ ·)
  | "-gt" => compare (· > ·)
  | "-le" => compare (· ≤ ·)
  | "-lt" => compare (· < ·)
  | "-ef" =>
    let place (path : Octets) := (files.locate (textOf path)).toOption
    return files.contains (textOf left) && place left = place right
  -- Files have no times here, so none is newer than another.
  | _ => return false

section Checking

variable (files : FileSystem)

mutual

/-- Check alternatives. What is left starts with the last word that was read. -/
def checkAny : Nat → ConditionToken → List Octets → Except String (Bool × List Octets)
  | 0, _, words => .ok (false, words)
  | fuel + 1, token, words => do
    let (holds, words) ← checkEvery fuel token words
    if words.isEmpty || conditionToken (words.drop 1) ≠ .or then return (holds, words)
    else
      let (others, words) ← checkAny fuel (conditionToken (words.drop 2)) (words.drop 2)
      return (holds || others, words)

/-- Check conditions that have to hold together. -/
def checkEvery : Nat → ConditionToken → List Octets → Except String (Bool × List Octets)
  | 0, _, words => .ok (false, words)
  | fuel + 1, token, words => do
    let (holds, words) ← checkNot fuel token words
    if words.isEmpty || conditionToken (words.drop 1) ≠ .and then return (holds, words)
    else
      let (others, words) ← checkEvery fuel (conditionToken (words.drop 2)) (words.drop 2)
      return (holds && others, words)

/-- Check a condition that may be negated. -/
def checkNot : Nat → ConditionToken → List Octets → Except String (Bool × List Octets)
  | 0, _, words => .ok (false, words)
  | fuel + 1, token, words => do
    if token ≠ .not then checkOne fuel token words
    else
      let next := conditionToken (words.drop 1)
      let (holds, words) ← checkNot fuel next (if next = .ending then words else words.drop 1)
      return (!holds, words)

/-- Check one condition. -/
def checkOne : Nat → ConditionToken → List Octets → Except String (Bool × List Octets)
  | 0, _, words => .ok (false, words)
  | fuel + 1, token, words => do
    let rest := words.drop 1
    match token with
    | .ending => return (false, words)
    | .opening =>
      let next := conditionToken rest
      if next = .closing then return (false, rest)
      else
        let (holds, words) ← checkAny fuel next rest
        if conditionToken (words.drop 1) = .closing then return (holds, words.drop 1)
        else .error "closing paren expected"
    | .unary operator =>
      match rest with
      | [] => .error (operator ++ ": argument expected")
      | word :: _ => return (← checkUnary files operator word, rest)
    | _ =>
      match conditionToken rest, rest.drop 1 with
      | .binary operator, [] => .error (operator ++ ": argument expected")
      | .binary operator, right :: _ =>
        return (← checkBinary files operator (words.headD []) right, rest.drop 1)
      | _, _ => return (!(words.headD []).isEmpty, words)

end

/-- Whether the condition that some words make holds, as `test` checks it. The number of words tells
what they are where there are few of them: a word that could be an operator is an operand where its
place says so. -/
def checkWords : Nat → List Octets → Except String Bool
  | 0, _ => .ok false
  | fuel + 1, words => do
    let whole (token : ConditionToken) (words : List Octets) : Except String Bool := do
      let (holds, left) ← checkAny files (4 * words.length + 4) token words
      match left with
      | word :: _ :: _ =>
        .error ((if word.isEmpty then "" else .ofList word ++ ": ") ++ "unexpected operator")
      | _ => return holds
    let isBinary := match words with
      | [_, operator, _] => match conditionOperator? operator with
        | some (.binary _) => true
        | _ => false
      | _ => false
    let isShort := words.length = 3 || words.length = 4
    if words.isEmpty then return false
    else if isBinary then whole .operand words
    else if isShort && words.head? = some ['('] && words.getLast? = some [')'] then
      let inner := (words.drop 1).dropLast
      whole (conditionToken inner) inner
    else if isShort && words.head? = some ['!'] then return !(← checkWords fuel (words.drop 1))
    else whole (conditionToken words) words

end Checking
end TerraStack.Shell
