import ClassSandbox.Decimal.Shortest

/-!
# The text of floating point numbers

Numbers are held as their bits. `single` and `double` describe the two formats, `FloatFormat.decode` reads
the bits, and `FloatFormat.text` writes the shortest decimal that reads back as the number: with a point
inside a range of magnitudes, and with a power of ten outside it.
-/

namespace ClassSandbox.Decimal

/-- A binary interchange format: the widths of its exponent and of its fraction. -/
structure FloatFormat where
  exponentBits : Nat
  fractionBits : Nat

def single : FloatFormat := ⟨8, 23⟩
def double : FloatFormat := ⟨11, 52⟩

inductive FloatValue where
  | notANumber
  | infinite (negative : Bool)
  | zero (negative : Bool)
  | finite (negative : Bool) (magnitude : Binary)
  deriving DecidableEq, Repr

namespace FloatFormat

def decode (format : FloatFormat) (bits : Nat) : FloatValue :=
  let fractions := Nat.pow 2 format.fractionBits
  let exponents := Nat.pow 2 format.exponentBits
  let fraction := bits % fractions
  let exponent := bits / fractions % exponents
  let negative := bits / (fractions * exponents) % 2 == 1
  let least : Int := 2 - Nat.pow 2 (format.exponentBits - 1) - format.fractionBits
  if exponent = exponents - 1 then
    if fraction = 0 then .infinite negative else .notANumber
  else if exponent = 0 then
    if fraction = 0 then .zero negative else .finite negative ⟨fraction, least, false⟩
  else
    .finite negative ⟨fractions + fraction, least + exponent - 1, fraction == 0⟩

end FloatFormat

/-- Which decimal exponents are written with a point and no power of ten. -/
structure PointRange where
  least : Int
  greatest : Int

/-- From one ten-thousandth on, and below ten quadrillions. -/
def pointRange : PointRange := ⟨-3, 16⟩

def Digits.text (number : Digits) : List Char :=
  let n : Int := number.digits.length
  if pointRange.least ≤ number.exponent ∧ number.exponent ≤ pointRange.greatest then
    if number.exponent ≤ 0 then
      ['0', '.'] ++ List.replicate (-number.exponent).toNat '0' ++ number.digits
    else if n ≤ number.exponent then
      number.digits ++ List.replicate (number.exponent - n).toNat '0' ++ ['.', '0']
    else
      number.digits.take number.exponent.toNat ++ '.' :: number.digits.drop number.exponent.toNat
  else
    number.digits.take 1 ++ (if n = 1 then [] else '.' :: number.digits.drop 1) ++
      'e' :: (toString (number.exponent - 1)).toList

def FloatFormat.text (format : FloatFormat) (bits : Nat) : String :=
  let sign (negative : Bool) : List Char := if negative then ['-'] else []
  String.ofList <| match format.decode bits with
    | .notANumber => ['N', 'a', 'N']
    | .infinite negative => sign negative ++ ['i', 'n', 'f']
    | .zero negative => sign negative ++ ['0', '.', '0']
    | .finite negative magnitude => sign negative ++ magnitude.shortest.text

end ClassSandbox.Decimal
