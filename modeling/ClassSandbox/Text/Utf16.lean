/-!
# UTF-16 units

A character is one unit, or a pair of surrogates when it lies above the basic plane. `utf16Units` splits a
character, and `ofUtf16?` puts characters together again. A surrogate without its partner is no character.
-/

namespace ClassSandbox.Text

def utf16Units (c : Char) : List UInt16 :=
  let n := c.toNat
  if n < 0x10000 then [UInt16.ofNat n]
  else [UInt16.ofNat (0xD800 + (n - 0x10000) / 0x400), UInt16.ofNat (0xDC00 + (n - 0x10000) % 0x400)]

/-- The first unit of a pair. -/
def isHighSurrogate (unit : UInt16) : Bool := 0xD800 ≤ unit && unit < 0xDC00

/-- The second unit of a pair. -/
def isLowSurrogate (unit : UInt16) : Bool := 0xDC00 ≤ unit && unit < 0xE000

def ofSurrogates (high low : UInt16) : Char :=
  Char.ofNat (0x10000 + (high.toNat - 0xD800) * 0x400 + (low.toNat - 0xDC00))

/-- Puts the characters of a sequence of units together, after those in `seen`, newest first. -/
def ofUtf16Loop? : List UInt16 → List Char → Option (List Char)
  | [], seen => some seen.reverse
  | unit :: rest, seen =>
    if isHighSurrogate unit then
      match rest with
      | [] => none
      | low :: rest => if isLowSurrogate low then ofUtf16Loop? rest (ofSurrogates unit low :: seen) else none
    else if isLowSurrogate unit then none
    else ofUtf16Loop? rest (Char.ofNat unit.toNat :: seen)

def ofUtf16? (units : List UInt16) : Option (List Char) := ofUtf16Loop? units []

end ClassSandbox.Text
