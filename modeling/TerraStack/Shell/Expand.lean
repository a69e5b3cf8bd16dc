import TerraStack.Shell.Arithmetic
import TerraStack.Shell.Pattern
import TerraStack.Shell.Process

namespace TerraStack.Shell

/-- What a word is expanded to: bytes that remember whether they are quoted and whether they may be
cut at, and marks between them. From the items come the fields of a word, its text, or a pattern. -/
inductive Item where
  | octet (mark : Mark) (mayCut : Bool)
  /-- Quotes, which make a field even if nothing is in them. -/
  | quotes
  /-- White space between arguments. -/
  | gap
  /-- The border between arguments, which are fields of their own. -/
  | border
  deriving Repr, DecidableEq

/-- The items of bytes that are quoted or not. What is not quoted may be cut. -/
def itemsOf (isQuoted : Bool) (octets : Octets) : List Item :=
  octets.map fun c => .octet ⟨c, isQuoted⟩ (!isQuoted)

/-- The bytes of items. -/
def marksOf (items : List Item) : List Mark :=
  items.filterMap fun item => match item with
    | .octet mark _ => some mark
    | .gap => some ⟨' ', false⟩
    | _ => none

/-- Items being cut into fields: the fields so far, the one at hand, both in reverse, and whether
the last one ended at white space. -/
structure Cut where
  fields : List (List Mark) := []
  field : Option (List Mark) := none
  afterBlank : Bool := false

namespace Cut

/-- End the field at hand. -/
def finish (cut : Cut) : Cut :=
  match cut.field with
  | some field => { cut with fields := field.reverse :: cut.fields, field := none }
  | none => cut

/-- Cut at white space, which ends a field but starts none. -/
def atBlank (cut : Cut) : Cut :=
  { cut.finish with afterBlank := cut.field.isSome || cut.afterBlank }

/-- Cut at another byte, which white space before it does not repeat. -/
def atDelimiter (cut : Cut) : Cut :=
  let cut := if cut.field.isNone && !cut.afterBlank then { cut with field := some [] } else cut
  { cut.finish with afterBlank := false }

/-- Go on with an item, where some bytes separate fields. -/
def step (separators : Octets) (cut : Cut) : Item → Cut
  | .quotes => { cut with field := some (cut.field.getD []), afterBlank := false }
  | .gap => cut.atBlank
  | .border => { cut.finish with afterBlank := false }
  | .octet mark mayCut =>
    if mayCut && separators.contains mark.octet then
      if [' ', '\t', '\n'].contains mark.octet then cut.atBlank else cut.atDelimiter
    else { cut with field := some (mark :: cut.field.getD []), afterBlank := false }

end Cut

/-- The fields into which some bytes cut items. -/
def fieldsOf (separators : Octets) (items : List Item) : List (List Mark) :=
  (items.foldl (Cut.step separators) {}).finish.fields.reverse

namespace Process

/-- The bytes that separate fields. -/
def separators (process : Process) : Octets :=
  match process.bindings.find? "IFS" with
  | some known => known.value.getD [' ', '\t', '\n']
  | none => [' ', '\t', '\n']

/-- The value of a parameter other than all arguments. -/
def parameter? (process : Process) (name : String) : Option Octets :=
  match name with
  | "#" => some (digitsOf process.args.length)
  | "?" => some (digitsOf process.status)
  | "-" => some process.options
  | "$" => some (digitsOf process.scriptNumber)
  | "!" => process.lastBackground.map fun number => digitsOf number
  | "0" => some process.name
  | name =>
    if name.toList.all Char.isDigit then
      match name.toNat? with
      | some (n + 1) => process.args[n]?
      | _ => none
    else process.value? name

/-- The arguments with the first separator between them. -/
def joinedArgs (process : Process) : Octets :=
  joinOctets (process.separators.take 1) process.args

/-- The items of all arguments. Only where fields are cut they stay apart. -/
def allArgs (process : Process) (isQuoted isCut isList : Bool) : List Item :=
  if !isCut || (isQuoted && !isList) then itemsOf isQuoted process.joinedArgs
  else
    let args := process.args.map (itemsOf isQuoted)
    if isQuoted then ((args.map (Item.quotes :: ·)).intersperse [.border]).flatten
    else (args.intersperse [.gap]).flatten

end Process

/-- Whether a parameter is all arguments. -/
def isAllArgs (name : String) : Bool :=
  name = "@" || name = "*"

/-- The bytes without the line feeds at the end. -/
def withoutFinalLines (octets : Octets) : Octets :=
  (octets.reverse.dropWhile (· = '\n')).reverse

/-- The number that the text of a variable denotes. Blank text denotes zero. -/
def numberOf (value : Octets) : Except ArithmeticError Int :=
  if value.all isBlank then .ok 0
  else (readInteger? 0 value).elim (.error (.noNumber value)) .ok

/-- The value of an expression. The variables that it sets are set. -/
def Run.calculate (text : Octets) : Run Int := do
  let shell ← get
  let value (name : String) := numberOf ((shell.value? name).getD [])
  let malformed (reason : String) : Octets :=
    ("arithmetic expression: " ++ reason ++ ": \"").toList ++ text ++ ['"']
  match Expression.read text >>= fun expression => (expression.evaluate value).run [] with
  | .ok (result, assigned) =>
    assigned.reverse.forM fun (name, value) =>
      Run.modifyProcess (·.assign name (digitsOf value))
    return result
  | .error (.malformed reason) => Run.die (malformed reason)
  | .error .divisionByZero => Run.die (malformed "division by zero")
  | .error (.noNumber value) => Run.die ("Illegal number: ".toList ++ value)

/-- The value of a parameter, which has to have one where the script insists on it. -/
def Run.parameter (name : String) : Run (Option Octets) := do
  let value? := (← get).parameter? name
  if value?.isNone && (← get).has 'u' then
    Run.die (name.toList ++ ": parameter not set".toList)
  return value?

/-- Set a variable unless its value is fixed. -/
def Run.assign (name : String) (value : Octets) : Run Unit := do
  if ((← get).bindings.find? name).any (·.isFixed) then
    Run.die (name.toList ++ ": is read only".toList)
  Run.modifyProcess (·.assign name value)

section Words

variable (capture : List Command → Run Octets)

mutual

/-- The items of a word. Outside quotes a text is cut only where it stands for a value. -/
def expandWord (isCut isValue : Bool) : Word → Run (List Item)
  | [] => return []
  | piece :: rest => do
    let items ← expandPiece isCut isValue piece
    return items ++ (← expandWord isCut isValue rest)

/-- The items of a piece. -/
def expandPiece (isCut isValue : Bool) : Piece → Run (List Item)
  | .text true [] => return [.quotes]
  | .text isQuoted octets =>
    return octets.map fun c => .octet ⟨c, isQuoted⟩ (isValue && !isQuoted)
  | .parameter isQuoted name use => expandUse isCut isQuoted name use
  | .output isQuoted commands => do
    return itemsOf isQuoted (withoutFinalLines (← capture commands))
  | .arithmetic isQuoted expression => do
    let items ← expandWord false false expression
    return itemsOf isQuoted (digitsOf (← Run.calculate ((marksOf items).map Mark.octet)))

/-- The items of what becomes of a parameter. -/
def expandUse (isCut isQuoted : Bool) (name : String) : Use → Run (List Item)
  | .value => do
    if isAllArgs name then return (← get).allArgs isQuoted isCut (name = "@")
    else return itemsOf isQuoted ((← Run.parameter name).getD [])
  | .length => do
    if isAllArgs name then return itemsOf isQuoted (digitsOf (← get).args.length)
    else return itemsOf isQuoted (digitsOf ((← Run.parameter name).getD []).length)
  | .orElse evenEmpty word => do
    match ← whole evenEmpty with
    | some items => return items
    | none => expandWord isCut (!isQuoted) word
  | .orAssign evenEmpty word => do
    match ← whole evenEmpty with
    | some items => return items
    | none =>
      let value := (marksOf (← expandWord false false word)).map Mark.octet
      if !isName name.toList then Run.die (name.toList ++ ": bad variable name".toList)
      Run.assign name value
      return itemsOf isQuoted value
  | .orFail evenEmpty word => do
    match ← whole evenEmpty with
    | some items => return items
    | none =>
      let reason := (marksOf (← expandWord false false word)).map Mark.octet
      let standard := if evenEmpty then "parameter not set or null" else "parameter not set"
      Run.die (name.toList ++ ": ".toList ++ (if word.isEmpty then standard.toList else reason))
  | .andThen evenEmpty word => do
    match ← whole evenEmpty with
    | some _ => expandWord isCut (!isQuoted) word
    | none => return []
  | .without atEnd longest pattern => do
    let pattern := marksOf (← expandWord false false pattern)
    let value ← if isAllArgs name then pure (← get).joinedArgs
      else pure ((← Run.parameter name).getD [])
    return itemsOf isQuoted (withoutMatch atEnd longest pattern value)
  | .invalid => Run.die "Bad substitution".toList
where
  /-- The items of the parameter, if it has a value that counts. -/
  whole (evenEmpty : Bool) : Run (Option (List Item)) := do
    let shell ← get
    if isAllArgs name then
      if shell.args.isEmpty || (evenEmpty && shell.joinedArgs.isEmpty) then return none
      else return some (shell.allArgs isQuoted isCut (name = "@"))
    else
      return ((shell.parameter? name).filter fun value => !(evenEmpty && value.isEmpty)).map
        (itemsOf isQuoted)

end

/-- The word with the home directory in place of a tilde at its start. -/
def withHome (process : Process) (word : Word) : Word :=
  match word with
  | .text false ('~' :: rest) :: more =>
    match process.value? "HOME" with
    | some home =>
      if rest.head?.all (· = '/') && (!rest.isEmpty || more.isEmpty) then
        .text true home :: .text false rest :: more
      else word
    | none => word
  | _ => word

/-- The fields of a word. -/
def expandFields (word : Word) : Run (List Octets) := do
  let items ← expandWord capture true false (withHome (← get).toProcess word)
  let shell ← get
  let fields := fieldsOf shell.separators items
  if shell.has 'f' then return fields.map (·.map Mark.octet)
  else return fields.flatMap (expandPaths shell.view)

/-- The bytes of a word, which is not cut. -/
def expandMarks (word : Word) : Run (List Mark) :=
  return marksOf (← expandWord capture false false (withHome (← get).toProcess word))

/-- The text of a word. -/
def expandText (word : Word) : Run Octets :=
  return (← expandMarks capture word).map Mark.octet

end Words
end TerraStack.Shell
