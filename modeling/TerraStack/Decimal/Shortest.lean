import TerraStack.Decimal.Binary64

namespace TerraStack.Decimal

/-- Which of two equally near decimals is taken. -/
inductive Tie where
  | up
  | toEven
  deriving Repr, DecidableEq

/-- The positive decimal `digits * 10 ^ exponent`. -/
structure Digits where
  digits : Nat
  exponent : Int
  deriving Repr, DecidableEq

/-- The reals that round to `significand * 2 ^ exponent`, as multiples of `2 ^ (exponent - 2)`. The
ends belong to them exactly when the significand is even. -/
structure Interval where
  low : Nat
  middle : Nat
  high : Nat
  closed : Bool

/-- The interval of a positive double. Below a power of two the next double is half as far away. -/
def Interval.ofDouble (significand : Nat) (exponent : Int) : Interval where
  low := 4 * significand - (if significand = Nat.pow 2 52 ∧ -1074 < exponent then 1 else 2)
  middle := 4 * significand
  high := 4 * significand + 2
  closed := significand % 2 = 0

/-- Whether the interval holds a point, all numbers being multiples of `1 / den`. -/
def Interval.holds (interval : Interval) (scale point : Nat) : Bool :=
  if interval.closed then interval.low * scale ≤ point ∧ point ≤ interval.high * scale
  else interval.low * scale < point ∧ point < interval.high * scale

/-- The number of decimal digits. -/
def digitCount (n : Nat) : Nat :=
  (Nat.toDigits 10 n).length

/-- The least power of ten above `num / den` has this exponent; both are positive. -/
def decimalPoint (num den : Nat) : Int :=
  if den ≤ num then digitCount (num / den)
  else
    let up := den / num
    let zeros := digitCount up
    if up = Nat.pow 10 (zeros - 1) ∧ den % num = 0 then 2 - (zeros : Int) else 1 - (zeros : Int)

/-- The point with a given step that stands for the double, if the interval holds one. If it holds a
point of a grid, it holds one of the two points next to the double, so only these are looked at. All
numbers are multiples of one unit: the double and the interval's ends `scale` times theirs. -/
def gridPoint (tie : Tie) (interval : Interval) (scale step : Nat) : Option Nat :=
  let value := interval.middle * scale
  let below := value / step
  let above := below + 1
  match interval.holds scale (below * step), interval.holds scale (above * step) with
  | true, true =>
    let down := value - below * step
    let up := above * step - value
    if down < up then some below
    else if up < down then some above
    else if tie = .toEven ∧ below % 2 = 0 then some below
    else some above
  | true, false => some below
  | false, true => some above
  | false, false => none

/-- Drop the zeros at the end of a positive number, at most `fuel` of them. -/
def dropZeros : Nat → Digits → Digits
  | 0, decimal => decimal
  | fuel + 1, decimal =>
    if decimal.digits % 10 = 0 ∧ 0 < decimal.digits then
      dropZeros fuel ⟨decimal.digits / 10, decimal.exponent + 1⟩
    else decimal

/-- Search the grids with `count` digits and more, `fuel` of them. Seventeen digits always do. -/
def searchGrids (tie : Tie) (interval : Interval) (quarter : Int) (point : Int) :
    Nat → Nat → Digits
  | 0, _ => ⟨interval.middle, 0⟩
  | fuel + 1, count =>
    let exponent := point - count
    let scale := Nat.pow 2 quarter.toNat * Nat.pow 10 (-exponent).toNat
    let step := Nat.pow 2 (-quarter).toNat * Nat.pow 10 exponent.toNat
    match gridPoint tie interval scale step with
    | some digits => dropZeros 20 ⟨digits, exponent⟩
    | none => searchGrids tie interval quarter point fuel (count + 1)

/-- The shortest decimal that rounds to `significand * 2 ^ exponent`, for a positive significand.
The decimals with one digit, with two digits and so on form grids: the first grid with a point in
the interval decides the number of digits, and of its points the one nearest to the double is taken. -/
def shortest (tie : Tie) (significand : Nat) (exponent : Int) : Digits :=
  let interval := Interval.ofDouble significand exponent
  let point := decimalPoint (significand * Nat.pow 2 exponent.toNat) (Nat.pow 2 (-exponent).toNat)
  searchGrids tie interval (exponent - 2) point 18 1

end TerraStack.Decimal
