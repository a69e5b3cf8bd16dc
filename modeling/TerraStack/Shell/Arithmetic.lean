import TerraStack.Shell.Octets

namespace TerraStack.Shell

/-- The digits of a base at the start of a text. -/
def takeDigits (base : Nat) (text : Octets) : List Nat :=
  let value (c : Char) : Nat :=
    if c.isDigit then c.toNat - '0'.toNat
    else if 'a' ≤ c ∧ c ≤ 'f' then c.toNat - 'a'.toNat + 10
    else if 'A' ≤ c ∧ c ≤ 'F' then c.toNat - 'A'.toNat + 10
    else base
  (text.map value).takeWhile (· < base)

/-- The number that digits denote in a base. -/
def ofDigits (base : Nat) (digits : List Nat) : Nat :=
  digits.foldl (fun n digit => base * n + digit) 0

/-- The number at the start of a text that starts with a digit, and what follows. A zero in front
tells the base. -/
def readNatural (text : Octets) : Nat × Octets :=
  let read (base : Nat) (text : Octets) :=
    let digits := takeDigits base text
    (ofDigits base digits, text.drop digits.length)
  match text with
  | '0' :: x :: rest =>
    if (x = 'x' || x = 'X') && !(takeDigits 16 rest).isEmpty then read 16 rest
    else read 8 text
  | _ => read 10 text

/-- The integer that a text denotes with blanks around it. In the base zero a zero in front tells
the base. -/
def readInteger? (base : Nat) (text : Octets) : Option Int :=
  let text := text.dropWhile isBlank
  let (isNegative, digits) := match text with
    | '-' :: rest => (true, rest)
    | '+' :: rest => (false, rest)
    | rest => (false, rest)
  if !digits.head?.any Char.isDigit then none
  else
    let (value, rest) :=
      if base = 0 then readNatural digits
      else
        let found := takeDigits base digits
        (ofDigits base found, digits.drop found.length)
    let value : Int := if isNegative then -value else value
    if rest.all isBlank && -(Nat.pow 2 63 : Int) ≤ value && value < Nat.pow 2 63 then some value
    else none

/-- An integer brought into the range of 64 bits. -/
def wrap (value : Int) : Int :=
  value.bmod (Nat.pow 2 64)

/-- An expression over integers of 64 bits. Sums and products that leave the range come back into it
from the other side. -/
inductive Expression where
  | number (value : Int)
  | variable_ (name : String)
  | unary (operator : String) (operand : Expression)
  | binary (operator : String) (left right : Expression)
  | choose (condition body otherwise : Expression)
  /-- Set a variable to a value, or to what an operator makes of its value and another. -/
  | assign (name operator : String) (value : Expression)
  deriving Repr

/-- Why a text has no value. -/
inductive ArithmeticError where
  | malformed (reason : String)
  | divisionByZero
  /-- The value of a variable is no number. -/
  | noNumber (text : Octets)
  deriving Repr, DecidableEq

/-- A word of an expression. -/
inductive ArithmeticToken where
  | number (value : Nat)
  | name (name : String)
  | operator (text : String)
  deriving Repr, DecidableEq

/-- The operators, the longest first. -/
def arithmeticOperators : List String :=
  ["<<=", ">>=", "&&", "||", "==", "!=", "<=", ">=", "<<", ">>", "+=", "-=", "*=", "/=", "%=", "&=",
    "^=", "|=", "+", "-", "*", "/", "%", "<", ">", "&", "^", "|", "~", "!", "?", ":", "=", "(", ")"]

/-- Cut an expression into tokens. -/
def arithmeticTokens : Nat → Octets → Except ArithmeticError (List ArithmeticToken)
  | 0, _ => .ok []
  | _, [] => .ok []
  | fuel + 1, c :: rest =>
    if isBlank c then arithmeticTokens fuel rest
    else if c.isDigit then
      let (value, after) := readNatural (c :: rest)
      (.number value :: ·) <$> arithmeticTokens fuel after
    else if startsName c then
      let name := (c :: rest).takeWhile isNameOctet
      (.name (.ofList name) :: ·) <$> arithmeticTokens fuel ((c :: rest).drop name.length)
    else
      match arithmeticOperators.find? fun operator => operator.toList.isPrefixOf (c :: rest) with
      | some operator =>
        (.operator operator :: ·) <$> arithmeticTokens fuel ((c :: rest).drop operator.length)
      | none => (.operator (.singleton c) :: ·) <$> arithmeticTokens fuel rest

/-- How tightly an operator with two operands binds. -/
def bindingOf (operator : String) : Option Nat :=
  match operator with
  | "||" => some 1
  | "&&" => some 2
  | "|" => some 3
  | "^" => some 4
  | "&" => some 5
  | "==" | "!=" => some 6
  | "<" | ">" | "<=" | ">=" => some 7
  | "<<" | ">>" => some 8
  | "+" | "-" => some 9
  | "*" | "/" | "%" => some 10
  | _ => none

/-- The operator with which an assignment changes a variable, which is empty for a plain one. -/
def assignmentOperator? (text : String) : Option String :=
  [("=", ""), ("+=", "+"), ("-=", "-"), ("*=", "*"), ("/=", "/"), ("%=", "%"), ("<<=", "<<"),
    (">>=", ">>"), ("&=", "&"), ("^=", "^"), ("|=", "|")].lookup text

namespace Expression

mutual

/-- Read an assignment or a choice. -/
def readWhole : Nat → List ArithmeticToken → Except ArithmeticError (Expression × List ArithmeticToken)
  | 0, _ => .error (.malformed "expecting primary")
  | fuel + 1, tokens => do
    let plain : Except ArithmeticError (Expression × List ArithmeticToken) := do
      let (condition, rest) ← readOperators fuel 1 tokens
      match rest with
      | .operator "?" :: rest =>
        let (body, rest) ← readWhole fuel rest
        match rest with
        | .operator ":" :: rest =>
          let (otherwise, rest) ← readWhole fuel rest
          return (.choose condition body otherwise, rest)
        | _ => .error (.malformed "expecting ':'")
      | rest => return (condition, rest)
    match tokens with
    | .name name :: .operator text :: rest =>
      match assignmentOperator? text with
      | some operator =>
        let (value, rest) ← readWhole fuel rest
        return (.assign name operator value, rest)
      | none => plain
    | _ => plain

/-- Read operands with operators that bind at least so tightly between them. -/
def readOperators : Nat → Nat → List ArithmeticToken →
    Except ArithmeticError (Expression × List ArithmeticToken)
  | 0, _, _ => .error (.malformed "expecting primary")
  | fuel + 1, binding, tokens => do
    let (left, rest) ← readPrimary fuel tokens
    readMore fuel binding left rest

/-- Read what follows an operand. -/
def readMore : Nat → Nat → Expression → List ArithmeticToken →
    Except ArithmeticError (Expression × List ArithmeticToken)
  | 0, _, left, tokens => .ok (left, tokens)
  | fuel + 1, binding, left, tokens => do
    match tokens with
    | .operator operator :: rest =>
      match bindingOf operator with
      | some found =>
        if found < binding then return (left, tokens)
        else
          let (right, rest) ← readOperators fuel (found + 1) rest
          readMore fuel binding (.binary operator left right) rest
      | none => return (left, tokens)
    | _ => return (left, tokens)

/-- Read an operand. -/
def readPrimary : Nat → List ArithmeticToken → Except ArithmeticError (Expression × List ArithmeticToken)
  | 0, _ => .error (.malformed "expecting primary")
  | fuel + 1, tokens => do
    match tokens with
    | .number value :: rest => return (.number (min value (Nat.pow 2 63 - 1)), rest)
    | .name name :: rest => return (.variable_ name, rest)
    | .operator "(" :: rest =>
      let (inner, rest) ← readWhole fuel rest
      match rest with
      | .operator ")" :: rest => return (inner, rest)
      | _ => .error (.malformed "expecting ')'")
    | .operator operator :: rest =>
      if ["+", "-", "!", "~"].contains operator then
        let (operand, rest) ← readPrimary fuel rest
        return (.unary operator operand, rest)
      else .error (.malformed "expecting primary")
    | [] => .error (.malformed "expecting primary")

end

/-- The expression that a text spells. Nothing spells zero. -/
def read (text : Octets) : Except ArithmeticError Expression := do
  let tokens ← arithmeticTokens (text.length + 1) text
  if tokens.isEmpty then return .number 0
  match ← readWhole (4 * tokens.length + 4) tokens with
  | (expression, []) => return expression
  | _ => .error (.malformed "expecting EOF")

/-- What an operator makes of two numbers. -/
def operate (operator : String) (left right : Int) : Except ArithmeticError Int :=
  let truth (condition : Bool) : Except ArithmeticError Int := .ok (if condition then 1 else 0)
  let bits (combine : BitVec 64 → BitVec 64 → BitVec 64) : Except ArithmeticError Int :=
    .ok (combine (.ofInt 64 left) (.ofInt 64 right)).toInt
  let shift := (right % 64).toNat
  match operator with
  | "+" => .ok (wrap (left + right))
  | "-" => .ok (wrap (left - right))
  | "*" => .ok (wrap (left * right))
  | "/" => if right = 0 then .error .divisionByZero else .ok (wrap (left.tdiv right))
  | "%" => if right = 0 then .error .divisionByZero else .ok (left.tmod right)
  | "<<" => .ok (wrap (left * Nat.pow 2 shift))
  | ">>" => .ok (left / Nat.pow 2 shift)
  | "<" => truth (left < right)
  | ">" => truth (right < left)
  | "<=" => truth (left ≤ right)
  | ">=" => truth (right ≤ left)
  | "==" => truth (left = right)
  | "!=" => truth (left ≠ right)
  | "&" => bits (· &&& ·)
  | "^" => bits (· ^^^ ·)
  | "|" => bits (· ||| ·)
  | "&&" => truth (left ≠ 0 && right ≠ 0)
  | "||" => truth (left ≠ 0 || right ≠ 0)
  | _ => .ok right

/-- The values that an expression has given to variables, the last one first. -/
abbrev Assigned := List (String × Int)

/-- The value of a variable, given the values that variables have outside. -/
def valueOf (value : String → Except ArithmeticError Int) (name : String) :
    StateT Assigned (Except ArithmeticError) Int := do
  match (← get).lookup name with
  | some known => return known
  | none => value name

/-- The value of an expression, given the values that variables have outside. -/
def evaluate (value : String → Except ArithmeticError Int) :
    Expression → StateT Assigned (Except ArithmeticError) Int
  | .number n => return n
  | .variable_ name => valueOf value name
  | .unary operator operand => do
    let operand ← operand.evaluate value
    match operator with
    | "-" => return wrap (-operand)
    | "!" => return if operand = 0 then 1 else 0
    | "~" => return -operand - 1
    | _ => return operand
  | .binary operator left right => do
    let left ← left.evaluate value
    if operator = "&&" && left = 0 then return 0
    else if operator = "||" && left ≠ 0 then return 1
    else operate operator left (← right.evaluate value)
  | .choose condition body otherwise => do
    if (← condition.evaluate value) ≠ 0 then body.evaluate value else otherwise.evaluate value
  | .assign name operator new => do
    let new ← new.evaluate value
    let new ← if operator = "" then pure new
      else do operate operator (← valueOf value name) new
    modify ((name, new) :: ·)
    return new

end Expression
end TerraStack.Shell
