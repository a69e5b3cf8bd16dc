import TerraStack.Decimal.Shortest

namespace TerraStack.Decimal

/-- A spelling of doubles, with the shortest digits that read back. The point stands after `point`
digits of `0.d₁d₂…`. -/
structure Layout where
  /-- Which of two equally near decimals is taken. -/
  tie : Tie
  /-- Whether a number with this place of its point is written without an exponent. -/
  isPositional : Int → Bool
  /-- Whether a whole number in positional form ends in `.0`. -/
  marksWhole : Bool
  infinity : String
  notANumber : String

/-- A run of zeros. -/
def zeros (count : Nat) : String :=
  .ofList (List.replicate count '0')

/-- The digits with the point after the first `point` of them, zeros filling the gap. -/
def positional (layout : Layout) (digits : String) (point : Int) : String :=
  let count : Int := digits.length
  if count ≤ point then
    digits ++ zeros (point - count).toNat ++ (if layout.marksWhole then ".0" else "")
  else if 0 < point then
    .ofList (digits.toList.take point.toNat) ++ "." ++ .ofList (digits.toList.drop point.toNat)
  else "0." ++ zeros (-point).toNat ++ digits

/-- One digit, the point and the other digits, and the power of ten. -/
def scientific (digits : String) (point : Int) : String :=
  let fraction := digits.toList.drop 1
  .ofList (digits.toList.take 1) ++ (if fraction.isEmpty then "" else "." ++ .ofList fraction)
    ++ "e" ++ toString (point - 1)

/-- The text of a magnitude that is not zero. -/
def Layout.writeDigits (layout : Layout) (decimal : Digits) : String :=
  let digits := toString decimal.digits
  let point := decimal.exponent + digits.length
  if layout.isPositional point then positional layout digits point
  else scientific digits point

/-- The text of a double. -/
def Layout.write (layout : Layout) (x : Float) : String :=
  let sign (negative : Bool) := if negative then "-" else ""
  match Binary64.ofFloat x with
  | .nan => layout.notANumber
  | .infinite negative => sign negative ++ layout.infinity
  | .finite negative 0 _ => sign negative ++ (if layout.marksWhole then "0.0" else "0")
  | .finite negative significand exponent =>
    sign negative ++ layout.writeDigits (shortest layout.tie significand exponent)

end TerraStack.Decimal
