/-!
# Hexadecimal digits

Numbers in error texts are written in base sixteen with lower case letters, and single bytes with exactly
two digits.
-/

namespace ClassSandbox.Text

def hexDigits (n : Nat) : List Char := Nat.toDigits 16 n

/-- The two digits of a byte. -/
def hexByte (byte : UInt8) : List Char :=
  [Nat.digitChar (byte.toNat / 16), Nat.digitChar (byte.toNat % 16)]

end ClassSandbox.Text
