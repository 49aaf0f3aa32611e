import ClassSandbox.ModifiedUtf8

/-!
# Reading binary data

A `Decoder` takes a value off the front of a sequence of bytes. Numbers have their high byte first, and
`listOf` reads a sequence after its length. A decoder that runs out of bytes fails with
`DecodeFault.endOfInput`. Every other fault says what the bytes hold that they may not.
-/

namespace ClassSandbox

/-- What binary data holds that it may not. -/
inductive DataFault where
  | badMagic (found : Bytes)
  | badConstantTag (tag : UInt8)
  | badHandleKind (kind : UInt8)
  | badText (fault : ModifiedUtf8.Fault)
  /-- The last constant takes two slots, and the pool declares only one more. -/
  | poolOverrun (count : UInt16)
  deriving DecidableEq, Repr

def DataFault.message : DataFault → String
  | badMagic found =>
    let bytes := found.map fun byte => String.ofList ((Text.hexByte byte).map Char.toUpper)
    "bad magic number [" ++ ", ".intercalate bytes ++ "]"
  | badConstantTag tag => s!"unknown constant pool tag {tag}"
  | badHandleKind kind => s!"unknown method handle kind {kind}"
  | badText fault => fault.message
  | poolOverrun count => s!"constant pool overflows its declared count {count}"

inductive DecodeFault where
  | endOfInput
  | invalid (fault : DataFault)
  deriving DecidableEq, Repr

def DecodeFault.message : DecodeFault → String
  | endOfInput => "failed to fill whole buffer"
  | invalid fault => fault.message

/-- Takes a value off the front of a sequence of bytes. -/
abbrev Decoder := StateT Bytes (Except DecodeFault)

namespace Decoder

variable {α : Type}

def fail (fault : DataFault) : Decoder α := throw (.invalid fault)

def byte : Decoder UInt8
  | [] => .error .endOfInput
  | b :: rest => .ok (b, rest)

/-- The next `n` bytes. -/
def take (n : Nat) : Decoder Bytes := fun bytes =>
  let front := bytes.take n
  if front.length < n then .error .endOfInput else .ok (front, bytes.drop n)

def u16 : Decoder UInt16 := do
  let high ← byte
  let low ← byte
  return high.toUInt16 * 0x100 + low.toUInt16

def u32 : Decoder UInt32 := do
  let high ← u16
  let low ← u16
  return high.toUInt32 * 0x10000 + low.toUInt32

def u64 : Decoder UInt64 := do
  let high ← u32
  let low ← u32
  return high.toUInt64 * 0x100000000 + low.toUInt64

def i32 : Decoder Int32 := UInt32.toInt32 <$> u32

def i64 : Decoder Int64 := UInt64.toInt64 <$> u64

/-- Reads `n` items, after those in `seen`, newest first. -/
@[specialize]
def itemsLoop (item : Decoder α) : Nat → List α → Bytes → Except DecodeFault (List α × Bytes)
  | 0, seen, bytes => .ok (seen.reverse, bytes)
  | n + 1, seen, bytes =>
    match item bytes with
    | .error fault => .error fault
    | .ok (next, rest) => itemsLoop item n (next :: seen) rest

/-- Reads `n` items. -/
@[inline]
def items (item : Decoder α) (n : Nat) : Decoder (List α) := itemsLoop item n []

/-- Reads a sequence after its length in two bytes. -/
@[inline]
def listOf (item : Decoder α) : Decoder (List α) := do
  let length ← u16
  items item length.toNat

end Decoder

end ClassSandbox
