import TerraStack.Decimal.Literal
import TerraStack.Yaml.Error
import TerraStack.Yaml.Node
import TerraStack.Yaml.Tag

namespace TerraStack.Yaml

def isNullText (text : String) : Bool :=
  ["null", "Null", "NULL", "~"].contains text

def readBool? (text : String) : Option Bool :=
  if ["true", "True", "TRUE"].contains text then some true
  else if ["false", "False", "FALSE"].contains text then some false
  else none

/-- Whether a text is a run of digits with a superfluous zero in front. -/
def hasLeadingZero (cs : List Char) : Bool :=
  match (Decimal.splitSign cs).2 with
  | '0' :: rest => !rest.isEmpty && rest.all Char.isDigit
  | _ => false

/-- The value of a digit in a base up to sixteen. -/
def digitValue? (base : Nat) (c : Char) : Option Nat :=
  let value? :=
    if c.isDigit then some (c.toNat - '0'.toNat)
    else if 'a' ≤ c ∧ c ≤ 'f' then some (c.toNat - 'a'.toNat + 10)
    else if 'A' ≤ c ∧ c ≤ 'F' then some (c.toNat - 'A'.toNat + 10)
    else none
  value?.filter (· < base)

/-- The number that digits in a base denote. There has to be at least one. -/
def readDigits? (base : Nat) (cs : List Char) : Option Nat :=
  if cs.isEmpty then none
  else cs.foldlM (fun n c => (digitValue? base c).map (base * n + ·)) 0

/-- The integer that a text denotes, with no bound on its size. -/
def readInteger? (cs : List Char) : Option Int :=
  let (negative, magnitude) := Decimal.splitSign cs
  let value? := match magnitude with
    | '0' :: 'x' :: rest => readDigits? 16 rest
    | '0' :: 'o' :: rest => readDigits? 8 rest
    | '0' :: 'b' :: rest => readDigits? 2 rest
    | _ => if hasLeadingZero cs then none else readDigits? 10 magnitude
  value?.map fun value => if negative then -(value : Int) else value

/-- Where an integer lies: among those of 64 bits, among those of 128 bits, or beyond. -/
inductive IntegerSize where
  | word
  | doubleWord
  | beyond

def IntegerSize.of (value : Int) : IntegerSize :=
  if -(Nat.pow 2 63 : Int) ≤ value ∧ value < Nat.pow 2 64 then .word
  else if -(Nat.pow 2 127 : Int) ≤ value ∧ value < Nat.pow 2 128 then .doubleWord
  else .beyond

/-- The integer that a text denotes, if any. One beyond 128 bits is left to the floats; one between
64 and 128 bits is an error. -/
def readWord? (cs : List Char) : Except Error (Option Int) :=
  match readInteger? cs with
  | none => .ok none
  | some value =>
    match IntegerSize.of value with
    | .word => .ok (some value)
    | .doubleWord => .error .integerRange
    | .beyond => .ok none

/-- The finite float, the infinity or the undefined number that a text denotes. -/
def readFloat? (text : String) : Option Float :=
  if [".inf", ".Inf", ".INF", "+.inf", "+.Inf", "+.INF"].contains text then some (1.0 / 0.0)
  else if ["-.inf", "-.Inf", "-.INF"].contains text then some (-1.0 / 0.0)
  else if [".nan", ".NaN", ".NAN"].contains text then some (0.0 / 0.0)
  else (Decimal.readFloat? text.toList).filter Float.isFinite

/-- What a plain scalar without a tag denotes. Nothing and the spellings of null are null, then come
the truth values, the integers, the floats, and all else is a string. A run of digits that starts
with a superfluous zero is a string, and so is a float too large to be finite. An integer has to fit
into 64 bits with or without a sign. -/
def Node.ofPlain (text : String) : Except Error Node := do
  if text = "" || isNullText text then .ok .null
  else match readBool? text with
    | some value => .ok (.bool value)
    | none =>
      match ← readWord? text.toList with
      | some value => .ok (.integer value)
      | none =>
        if hasLeadingZero text.toList then .ok (.string text)
        else match readFloat? text with
          | some value => .ok (.float value)
          | none => .ok (.string text)

/-- What a scalar denotes whose tag is not an application's own. The tags of the core types ask for
their own spellings whatever the quotes; any other tag makes the scalar a string. -/
def Node.ofTagged (tag : Tag) (text : String) : Except Error Node := do
  let orMismatch (value : Option Node) : Except Error Node :=
    match value with
    | some node => .ok node
    | none => .error .tagMismatch
  if tag = Tag.core "bool" then orMismatch ((readBool? text).map .bool)
  else if tag = Tag.core "int" then orMismatch ((← readWord? text.toList).map .integer)
  else if tag = Tag.core "float" then orMismatch ((readFloat? text).map .float)
  else if tag = Tag.core "null" then orMismatch (if isNullText text then some .null else none)
  else .ok (.string text)

end TerraStack.Yaml
