import ClassSandbox.Constant.Codec
import ClassSandbox.ConstantPool

/-!
# The bytes of constant pools

A pool is written after the offset that the next constant would have. Reading goes on until a constant
reaches that offset, and fails if it goes past it.
-/

namespace ClassSandbox.ConstantPool

/-- Reads constants until the next one would have the offset `count`. -/
def decodeLoop (count : Nat) (pool : ConstantPool) (bytes : Bytes) :
    Except DecodeFault (ConstantPool × Bytes) :=
  if pool.constants.nextOffset < count then
    match Constant.decode bytes with
    | .error fault => .error fault
    | .ok (constant, rest) => decodeLoop count (pool.store constant) rest
  else
    .ok (pool, bytes)
termination_by count - pool.constants.nextOffset
decreasing_by
  have := constant.width_pos
  rw [nextOffset_store]
  omega

def decode : Decoder ConstantPool := do
  let count ← Decoder.u16
  let pool ← decodeLoop count.toNat empty
  if pool.constants.nextOffset = count.toNat then return pool
  else Decoder.fail (.poolOverrun count)

def encode (pool : ConstantPool) : Encoding := do
  let body ← Encoder.concat (fun entry => Constant.encode entry.2) pool.constants.toList
  return Encoder.u16 (UInt16.ofNat pool.constants.nextOffset) ++ body

end ClassSandbox.ConstantPool
