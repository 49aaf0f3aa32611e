import ClassSandbox.ClassFile
import ClassSandbox.Proofs.ModifiedUtf8.Shortest

/-!
# Surveys of class files

The format of class files leaves a choice in two places only: texts may be longer than they have to be, and access
flags may have bits that mean nothing. `ClassFile.survey` walks over the bytes of a class and collects what stands in
these places, as it stands there, in order.
-/

namespace ClassSandbox

/-- What stands in a place that leaves a choice. -/
inductive Mark where
  | text (body : Bytes)
  | flags (kind : Declared) (word : UInt16)
  deriving DecidableEq, Repr

/-- The text is in its shortest form, or all bits are declared. -/
def Mark.IsCanonical : Mark → Prop
  | .text body => ModifiedUtf8.isShortest body = true
  | .flags kind word => word &&& kind.mask = word

instance (mark : Mark) : Decidable mark.IsCanonical :=
  match mark with
  | .text body => inferInstanceAs (Decidable (ModifiedUtf8.isShortest body = true))
  | .flags kind word => inferInstanceAs (Decidable (word &&& kind.mask = word))

/-- The slots that a constant takes after its first one, and its text. -/
def Constant.survey : Decoder (Nat × List Mark) := do
  let tag ← Decoder.byte
  match tag with
  | 1 =>
    let length ← Decoder.u16
    let body ← Decoder.take length.toNat
    return (0, [.text body])
  | 5 | 6 =>
    let _ ← Decoder.take 8
    return (1, [])
  | 7 | 8 | 16 | 19 | 20 =>
    let _ ← Decoder.take 2
    return (0, [])
  | 15 =>
    let _ ← Decoder.take 3
    return (0, [])
  | _ =>
    let _ ← Decoder.take 4
    return (0, [])

/-- The texts of the constants that fill some slots. -/
def surveyConstants (slots : Nat) : Decoder (List Mark) :=
  match slots with
  | 0 => return []
  | slots + 1 => do
    let (more, marks) ← Constant.survey
    let others ← surveyConstants (slots - more)
    return marks ++ others
termination_by slots

/-- The first slot of a pool is never filled. -/
def ConstantPool.survey : Decoder (List Mark) := do
  let count ← Decoder.u16
  surveyConstants (count.toNat - 1)

def AccessFlags.survey (kind : Declared) : Decoder (List Mark) := do
  let word ← Decoder.u16
  return [.flags kind word]

def Member.survey (kind : Declared) : Decoder (List Mark) := do
  let flags ← AccessFlags.survey kind
  let _ ← Decoder.u16
  let _ ← Decoder.u16
  let _ ← Decoder.listOf Attribute.decode
  return flags

def ClassFile.survey : Decoder (List Mark) := do
  let _ ← Decoder.take 4
  let _ ← Version.decode
  let texts ← ConstantPool.survey
  let flags ← AccessFlags.survey .class
  let _ ← Decoder.u16
  let _ ← decodeOptionalIndex
  let _ ← Decoder.listOf Decoder.u16
  let fields ← Decoder.listOf (Member.survey .field)
  let methods ← Decoder.listOf (Member.survey .method)
  let _ ← Decoder.listOf Attribute.decode
  return texts ++ (flags ++ (fields.flatten ++ methods.flatten))

end ClassSandbox
