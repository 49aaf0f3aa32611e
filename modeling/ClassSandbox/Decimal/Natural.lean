/-!
# Decimal numbers

Natural numbers below a bound, written in decimal digits. `readBelow` goes through the digits from the
left, and the first one that is no digit or makes the number too large decides on the fault.
-/

namespace ClassSandbox.Decimal

inductive NumberFault where
  | invalidDigit
  | tooLarge
  deriving DecidableEq, Repr

def NumberFault.message : NumberFault → String
  | invalidDigit => "invalid digit found in string"
  | tooLarge => "number too large to fit in target type"

/-- Reads digits that continue a number. -/
def readDigits (bound number : Nat) : List Char → Except NumberFault Nat
  | [] => .ok number
  | c :: rest =>
    if !c.isDigit then .error .invalidDigit
    else
      let next := number * 10 + (c.toNat - '0'.toNat)
      if next < bound then readDigits bound next rest else .error .tooLarge

/-- Reads a number of at least one digit, which may follow a plus sign. -/
def readBelow (bound : Nat) (text : List Char) : Except NumberFault Nat :=
  match text with
  | [] | ['+'] => .error .invalidDigit
  | '+' :: digits => readDigits bound 0 digits
  | digits => readDigits bound 0 digits

end ClassSandbox.Decimal
