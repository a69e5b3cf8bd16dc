namespace TerraStack.Decimal

/-- What the bits of a double say. A finite double is a significand times a power of two. -/
inductive Binary64 where
  | nan
  | infinite (negative : Bool)
  /-- The number `± significand * 2 ^ exponent`. -/
  | finite (negative : Bool) (significand : Nat) (exponent : Int)
  deriving Repr, DecidableEq

namespace Binary64

/-- Take a float apart. -/
def ofFloat (x : Float) : Binary64 :=
  let bits := x.toBits.toNat
  let negative := decide (bits / Nat.pow 2 63 = 1)
  let power : Nat := bits / Nat.pow 2 52 % Nat.pow 2 11
  let fraction := bits % Nat.pow 2 52
  if power = 2047 then
    if fraction = 0 then .infinite negative else .nan
  else if power = 0 then .finite negative fraction (-1074)
  else .finite negative (Nat.pow 2 52 + fraction) ((power : Int) - 1075)

/-- The bits of a magnitude: zero if `significand` is zero, and infinity if it is too large. The
significand has at most 53 bits, and 53 of them if the exponent is above the least one. -/
def magnitudeBits (significand : Nat) (exponent : Int) : Nat :=
  if significand < Nat.pow 2 52 then significand
  else
    let power := (exponent + 1075).toNat
    if 2047 ≤ power then 2047 * Nat.pow 2 52 else power * Nat.pow 2 52 + (significand - Nat.pow 2 52)

/-- The nearest whole number to a fraction, a tie going to the even one. -/
def roundDiv (num den : Nat) : Nat :=
  let quotient := num / den
  let twice := 2 * (num % den)
  if twice < den ∨ (twice = den ∧ quotient % 2 = 0) then quotient else quotient + 1

/-- The magnitude bits of the double nearest to `num / den`, for a positive `den`. -/
def nearestBits (num den : Nat) : Nat :=
  if num = 0 then 0
  else
    let guess : Int := (num.log2 : Int) - den.log2 - 52
    let scaled (exponent : Int) : Nat × Nat :=
      (num * Nat.pow 2 (-exponent).toNat, den * Nat.pow 2 exponent.toNat)
    let tooFine := (scaled guess).1 < Nat.pow 2 52 * (scaled guess).2
    let exponent := max (-1074) (if tooFine then guess - 1 else guess)
    let rounded := roundDiv (scaled exponent).1 (scaled exponent).2
    if rounded = Nat.pow 2 53 then magnitudeBits (Nat.pow 2 52) (exponent + 1)
    else magnitudeBits rounded exponent

/-- The double nearest to `± num / den`. -/
def nearest (negative : Bool) (num den : Nat) : Float :=
  let bits := nearestBits num den
  .ofBits (.ofNat (if negative then Nat.pow 2 63 + bits else bits))

end Binary64
end TerraStack.Decimal
