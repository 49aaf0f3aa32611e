import ClassSandbox.Bytes.Decoder
import ClassSandbox.Bytes.Encoder

/-!
# Access flags

Classes, fields and methods each declare the bits that have a meaning on them. `AccessFlags` holds declared
bits only: `AccessFlags.ofBits` drops the others.
-/

namespace ClassSandbox

/-- What access flags are put on. -/
inductive Declared where
  | «class»
  | field
  | method
  deriving DecidableEq, Repr

namespace Declared

/-- The flags of a declaration, from the least bit to the greatest. -/
def flags : Declared → List (String × UInt16)
  | .class => [("PUBLIC", 0x0001), ("FINAL", 0x0010), ("SUPER", 0x0020), ("INTERFACE", 0x0200),
      ("ABSTRACT", 0x0400), ("SYNTHETIC", 0x1000), ("ANNOTATION", 0x2000), ("ENUM", 0x4000),
      ("MODULE", 0x8000)]
  | .field => [("PUBLIC", 0x0001), ("PRIVATE", 0x0002), ("PROTECTED", 0x0004), ("STATIC", 0x0008),
      ("FINAL", 0x0010), ("VOLATILE", 0x0040), ("TRANSIENT", 0x0080), ("SYNTHETIC", 0x1000), ("ENUM", 0x4000)]
  | .method => [("PUBLIC", 0x0001), ("PRIVATE", 0x0002), ("PROTECTED", 0x0004), ("STATIC", 0x0008),
      ("FINAL", 0x0010), ("SYNCHRONIZED", 0x0020), ("BRIDGE", 0x0040), ("VARARGS", 0x0080),
      ("NATIVE", 0x0100), ("ABSTRACT", 0x0400), ("STRICT", 0x0800), ("SYNTHETIC", 0x1000)]

/-- All the declared bits. -/
def mask : Declared → UInt16
  | .class => 0xF631
  | .field => 0x50DF
  | .method => 0x1DFF

end Declared

/-- Bits of which each is declared for the kind of thing that they are put on. -/
structure AccessFlags (kind : Declared) where
  bits : UInt16
  declared : bits &&& kind.mask = bits
  deriving DecidableEq

namespace AccessFlags

variable {kind : Declared}

/-- The declared ones among some bits. -/
def ofBits (bits : UInt16) : AccessFlags kind :=
  ⟨bits &&& kind.mask, by rw [UInt16.and_assoc, UInt16.and_self]⟩

theorem ofBits_bits (flags : AccessFlags kind) : ofBits flags.bits = flags := by
  cases flags with
  | mk bits declared => simp [ofBits, declared]

/-- The flag is set. -/
def has (flags : AccessFlags kind) (flag : UInt16) : Bool := flags.bits &&& flag == flag

/-- The flags without one of them. -/
def without (flags : AccessFlags kind) (flag : UInt16) : AccessFlags kind := ofBits (flags.bits &&& ~~~flag)

def describe (flags : AccessFlags kind) : String :=
  match kind.flags.filter fun flag => flags.has flag.2 with
  | [] => "(empty)"
  | present => " | ".intercalate (present.map Prod.fst)

def decode : Decoder (AccessFlags kind) := ofBits <$> Decoder.u16

def encode (flags : AccessFlags kind) : Bytes := Encoder.u16 flags.bits

end AccessFlags

/-- A static field belongs to the class and not to its objects. -/
def staticFlag : UInt16 := 0x0008

def volatileFlag : UInt16 := 0x0040

def synchronizedFlag : UInt16 := 0x0020

end ClassSandbox
