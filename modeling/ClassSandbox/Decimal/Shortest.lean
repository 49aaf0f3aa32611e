/-!
# The shortest decimal of a binary fraction

A binary floating point number stands for every real number that rounds to it: an interval around its
value, which is narrower below a power of two. `Binary.shortest` finds the decimal with the fewest digits
in that interval, and of several the one nearest to the value; of two that are equally near, the larger.

The search goes through the grids of one digit, two digits and so on. If a grid has a point in the
interval, then one of the two grid points next to the value is in it, so only these are tried.
-/

namespace ClassSandbox.Decimal

/-- A positive binary fraction: `significand * 2 ^ exponent`. `atPower` says that the significand is the
least one of its binary digits, so that the next smaller number is only half as far as the next larger. -/
structure Binary where
  significand : Nat
  exponent : Int
  atPower : Bool
  deriving DecidableEq, Repr

/-- Decimal digits after the point, without zeros at either end, times a power of ten. -/
structure Digits where
  digits : List Char
  exponent : Int
  deriving DecidableEq, Repr

/-- The quotient of two natural numbers, compared without division. -/
structure Ratio where
  num : Nat
  den : Nat

def Ratio.ofScale (n : Nat) (base : Nat) (exponent : Int) : Ratio :=
  if 0 ≤ exponent then ⟨n * base.pow exponent.toNat, 1⟩ else ⟨n, base.pow (-exponent).toNat⟩

def Ratio.le (a b : Ratio) : Bool := a.num * b.den ≤ b.num * a.den

def Ratio.lt (a b : Ratio) : Bool := a.num * b.den < b.num * a.den

namespace Binary

/-- `quarters * 2 ^ (exponent - 2)`. -/
def scaled (x : Binary) (quarters : Nat) : Ratio := Ratio.ofScale quarters 2 (x.exponent - 2)

/-- The point is in the interval that rounds to `x`. Its ends round to the even significand. -/
def covers (x : Binary) (point : Ratio) : Bool :=
  let low := x.scaled (4 * x.significand - if x.atPower then 1 else 2)
  let high := x.scaled (4 * x.significand + 2)
  if x.significand % 2 = 0 then low.le point && point.le high else low.lt point && point.lt high

/-- The least power of ten above `x` among those from `exponent` on, tried one after another. -/
def powerAbove (x : Binary) : Nat → Int → Int
  | 0, exponent => exponent
  | fuel + 1, exponent =>
    if (x.scaled (4 * x.significand)).lt (Ratio.ofScale 1 10 exponent) then exponent
    else powerAbove x fuel (exponent + 1)

/-- The nearest point in the interval with a given number of digits, as a multiple of the last digit's
weight `10 ^ weight`. -/
def nearest? (x : Binary) (weight : Int) : Option Nat :=
  let value := x.scaled (4 * x.significand)
  let unit := Ratio.ofScale 1 10 weight
  let below := value.num * unit.den / (value.den * unit.num)
  let fromBelow := Ratio.ofScale (2 * below + 1) 10 weight
  let downHit := x.covers (Ratio.ofScale below 10 weight)
  let upHit := x.covers (Ratio.ofScale (below + 1) 10 weight)
  let upNearer := fromBelow.le ⟨2 * value.num, value.den⟩
  match downHit, upHit with
  | true, true => some (if upNearer then below + 1 else below)
  | true, false => some below
  | false, true => some (below + 1)
  | false, false => none

/-- The digits of a multiple of `10 ^ weight`. -/
def digitsOf (n : Nat) (weight : Int) : Digits :=
  let all := Nat.toDigits 10 n
  ⟨(all.reverse.dropWhile (· == '0')).reverse, weight + all.length⟩

/-- Tries the grids from the one with the last digit at `weight` on, towards smaller weights. -/
def search (x : Binary) : Nat → Int → Option Digits
  | 0, _ => none
  | fuel + 1, weight =>
    match x.nearest? weight with
    | some n => some (digitsOf n weight)
    | none => search x fuel (weight - 1)

/-- No number of these two formats needs more than seventeen digits or reaches below `10 ^ -330`. -/
def shortest (x : Binary) : Digits :=
  let top := x.powerAbove 700 (-330)
  (x.search 20 (top - 1)).getD ⟨[], 0⟩

end Binary

end ClassSandbox.Decimal
