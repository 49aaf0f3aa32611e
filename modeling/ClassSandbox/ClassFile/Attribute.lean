import ClassSandbox.ConstantPool.Codec

/-!
# Attributes

An attribute is a name and some bytes, which stay as they are unless someone asks for what they mean.
Everything in them that mentions a class does so by an index into the constant pool. `AttributeKind` says
what the attributes of one name hold, and `Attribute.decodeAs` and `AttributeKind.write` go between an
attribute and its contents.
-/

namespace ClassSandbox

structure Attribute where
  name : ConstantIndex
  info : Bytes
  deriving DecidableEq, Repr

/-- The contents of the attributes with one name. -/
structure AttributeKind (α : Type) where
  name : String
  decode : Decoder α
  encode : α → Encoding

/-- The text of a generic signature. -/
def signatureKind : AttributeKind ConstantIndex where
  name := "Signature"
  decode := Decoder.u16
  encode := fun signature => .ok (Encoder.u16 signature)

/-- The classes of the checked exceptions that a method declares. -/
def exceptionsKind : AttributeKind (List ConstantIndex) where
  name := "Exceptions"
  decode := Decoder.listOf Decoder.u16
  encode := Encoder.listOf fun exception => .ok (Encoder.u16 exception)

namespace Attribute

/-- What the attribute holds, if it is of that kind. Its bytes have to be used up. -/
def decodeAs {α : Type} (kind : AttributeKind α) (pool : ConstantPool) (item : Attribute) :
    Except ClassFault (Option α) := do
  if (← pool.textAt item.name) ≠ kind.name then return none
  match kind.decode item.info with
  | .error fault => throw (.malformed (.badAttribute kind.name fault))
  | .ok (contents, []) => return some contents
  | .ok (_, rest) => throw (.malformed (.attributeTrailingBytes kind.name rest.length))

def decode : Decoder Attribute := do
  let name ← Decoder.u16
  let length ← Decoder.u32
  let info ← Decoder.take length.toNat
  return ⟨name, info⟩

def encode (item : Attribute) : Bytes :=
  Encoder.u16 item.name ++ Encoder.u32 (UInt32.ofNat item.info.length) ++ item.info

end Attribute

/-- The attribute that holds some contents. Its name is put into the pool. -/
def AttributeKind.write {α : Type} (kind : AttributeKind α) (contents : α) : PoolAction Attribute := do
  let name ← PoolAction.text kind.name
  match kind.encode contents with
  | .ok info => return ⟨name, info⟩
  | .error fault => throw (.badLength fault)

end ClassSandbox
