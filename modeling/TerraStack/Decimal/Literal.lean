import TerraStack.Decimal.Shortest

namespace TerraStack.Decimal

/-- The number that a run of digits denotes after `done`. -/
def natOfDigits (done : Nat) (digits : List Char) : Nat :=
  digits.foldl (fun n c => 10 * n + (c.toNat - '0'.toNat)) done

/-- A sign at the start of a text, and the rest. The sign may be missing. -/
def splitSign : List Char → Bool × List Char
  | '-' :: rest => (true, rest)
  | '+' :: rest => (false, rest)
  | cs => (false, cs)

/-- The power of ten after the digits: nothing, or `e`, a sign and at least one digit. -/
def readExponent? : List Char → Option Int
  | [] => some 0
  | c :: rest =>
    let (negative, digits) := splitSign rest
    if (c = 'e' ∨ c = 'E') ∧ !digits.isEmpty ∧ digits.all Char.isDigit then
      let size : Int := natOfDigits 0 digits
      some (if negative then -size else size)
    else none

/-- A literal without its sign. -/
def readMagnitude? (cs : List Char) : Option Digits :=
  let whole := cs.takeWhile Char.isDigit
  let rest := cs.dropWhile Char.isDigit
  let (fraction, tail) := match rest with
    | '.' :: more => (more.takeWhile Char.isDigit, more.dropWhile Char.isDigit)
    | _ => ([], rest)
  if whole.isEmpty && fraction.isEmpty then none
  else (readExponent? tail).map fun power =>
    ⟨natOfDigits (natOfDigits 0 whole) fraction, power - fraction.length⟩

/-- The double nearest to a decimal, and an infinity if the decimal is too large. Beyond four
hundred places nothing but its size matters. -/
def Digits.toFloat (negative : Bool) (decimal : Digits) : Float :=
  let place := decimal.exponent + digitCount decimal.digits
  if decimal.digits = 0 ∨ place < -400 then Binary64.nearest negative 0 1
  else if 400 < place then Binary64.nearest negative (Nat.pow 2 1024) 1
  else Binary64.nearest negative (decimal.digits * Nat.pow 10 decimal.exponent.toNat)
    (Nat.pow 10 (-decimal.exponent).toNat)

/-- The double that a literal stands for. A literal is an optional sign, digits with at most one
point among or beside them, and a power of ten. -/
def readFloat? (cs : List Char) : Option Float :=
  let (negative, magnitude) := splitSign cs
  (readMagnitude? magnitude).map (Digits.toFloat negative)

end TerraStack.Decimal
