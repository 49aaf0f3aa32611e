import ClassSandbox.Text.Hex
import ClassSandbox.Text.Utf16

/-!
# Modified UTF-8

Class files hold text as the UTF-16 units of its characters, each unit in one to three bytes. The unit zero
takes two bytes, so an encoded text holds no zero byte, and a character above the basic plane takes six.

`encode` and `decode` are the two directions, and `encodedLength` counts the bytes without writing them.
Decoding accepts longer forms of a unit than `encode` writes, and refuses surrogates that are not paired.
-/

namespace ClassSandbox

/-- Class files and their parts are sequences of bytes. -/
abbrev Bytes := List UInt8

namespace ModifiedUtf8

inductive Fault where
  | badLead (byte : UInt8) (position : Nat)
  | badContinuation (byte : UInt8) (position : Nat)
  | truncated (position : Nat)
  | loneSurrogate
  deriving DecidableEq, Repr

def Fault.message : Fault → String
  | badLead byte position =>
    "invalid leading byte 0x" ++ String.ofList (Text.hexByte byte) ++ s!" at {position}"
  | badContinuation byte position =>
    "invalid continuation byte 0x" ++ String.ofList (Text.hexByte byte) ++ s!" at {position}"
  | truncated position => s!"truncated character at {position}"
  | loneSurrogate => "invalid utf-16: lone surrogate found"

def encodeUnit (unit : UInt16) : Bytes :=
  let n := unit.toNat
  if n ≠ 0 ∧ n < 0x80 then [UInt8.ofNat n]
  else if n < 0x800 then [UInt8.ofNat (0xC0 + n / 64), UInt8.ofNat (0x80 + n % 64)]
  else [UInt8.ofNat (0xE0 + n / 4096), UInt8.ofNat (0x80 + n / 64 % 64), UInt8.ofNat (0x80 + n % 64)]

def encode (text : String) : Bytes :=
  (text.toList.flatMap Text.utf16Units).flatMap encodeUnit

/-- The number of bytes of an encoded character. -/
def charLength (c : Char) : Nat :=
  if c = '\x00' then 2 else if c.utf8Size = 4 then 6 else c.utf8Size

def encodedLength (text : String) : Nat := text.toList.foldr (charLength · + ·) 0

/-- The six bits of the continuation byte at the front of `bytes`, which begins at `position`. -/
def continuation (position : Nat) : Bytes → Except Fault Nat
  | [] => .error (.truncated position)
  | byte :: _ =>
    if 0x80 ≤ byte && byte < 0xC0 then .ok (byte.toNat - 0x80) else .error (.badContinuation byte position)

/-- Decodes the units of `bytes`, which begins at `position`, after those in `seen`, newest first. -/
def decodeUnits (position : Nat) (bytes : Bytes) (seen : List UInt16) : Except Fault (List UInt16) :=
  match bytes with
  | [] => .ok seen.reverse
  | byte :: rest =>
    if byte ≠ 0 ∧ byte < 0x80 then
      decodeUnits (position + 1) rest (byte.toUInt16 :: seen)
    else if 0xC0 ≤ byte ∧ byte < 0xE0 then
      match continuation (position + 1) rest with
      | .error fault => .error fault
      | .ok low =>
        decodeUnits (position + 2) (rest.drop 1) (UInt16.ofNat ((byte.toNat - 0xC0) * 64 + low) :: seen)
    else if 0xE0 ≤ byte ∧ byte < 0xF0 then
      match continuation (position + 1) rest with
      | .error fault => .error fault
      | .ok middle =>
        match continuation (position + 2) (rest.drop 1) with
        | .error fault => .error fault
        | .ok low =>
          decodeUnits (position + 3) (rest.drop 2)
            (UInt16.ofNat ((byte.toNat - 0xE0) * 4096 + middle * 64 + low) :: seen)
    else
      .error (.badLead byte position)
termination_by bytes.length

def decode (bytes : Bytes) : Except Fault String :=
  match decodeUnits 0 bytes [] with
  | .error fault => .error fault
  | .ok units =>
    match Text.ofUtf16? units with
    | none => .error .loneSurrogate
    | some text => .ok (String.ofList text)

end ModifiedUtf8

end ClassSandbox
