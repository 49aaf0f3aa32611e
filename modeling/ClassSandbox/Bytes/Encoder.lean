import ClassSandbox.ModifiedUtf8

/-!
# Writing binary data

The bytes of numbers, high byte first, and of sequences after their length. A sequence of more than 65535
items has no encoding, which is the only way in which encoding fails.
-/

namespace ClassSandbox

/-- What a length in two bytes counts. -/
inductive Counted where
  | items
  | textBytes
  deriving DecidableEq, Repr

/-- A length that does not fit in two bytes. -/
structure LengthFault where
  counted : Counted
  length : Nat
  deriving DecidableEq, Repr

def LengthFault.message (fault : LengthFault) : String :=
  let what := match fault.counted with
    | .items => "sequence"
    | .textBytes => "Utf8 constant"
  s!"{what} of length {fault.length} does not fit in a class file"

/-- The bytes of a value, if it has an encoding. -/
abbrev Encoding := Except LengthFault Bytes

namespace Encoder

variable {α : Type}

def u16 (n : UInt16) : Bytes := [(n / 0x100).toUInt8, n.toUInt8]

def u32 (n : UInt32) : Bytes := u16 (n / 0x10000).toUInt16 ++ u16 n.toUInt16

def u64 (n : UInt64) : Bytes := u32 (n / 0x100000000).toUInt32 ++ u32 n.toUInt32

def i32 (n : Int32) : Bytes := u32 n.toUInt32

def i64 (n : Int64) : Bytes := u64 n.toUInt64

def length (counted : Counted) (n : Nat) : Encoding :=
  if n < 0x10000 then .ok (u16 (UInt16.ofNat n)) else .error ⟨counted, n⟩

/-- The encodings of the items one after another. -/
def concat (item : α → Encoding) (values : List α) : Encoding :=
  List.flatten <$> values.mapM item

/-- The items after their number. -/
def listOf (item : α → Encoding) (values : List α) : Encoding := do
  let count ← length .items values.length
  let body ← concat item values
  return count ++ body

end Encoder

end ClassSandbox
