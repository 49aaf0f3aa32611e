import ClassSandbox.AccessFlags
import ClassSandbox.Resolution

/-!
# Headers

The symbolic parts of classes, fields and methods, and what they turn into. Two flags are dropped, because
no object is ever visible to two sandboxes: methods are not `synchronized` any more, and fields are not
`volatile`, unless they are static fields of trusted classes.
-/

namespace ClassSandbox

structure ClassHeader where
  name : String
  superName : Option String
  interfaces : List String
  signature : Option String
  deriving DecidableEq, Repr

structure FieldHeader where
  flags : AccessFlags .field
  name : String
  descriptor : String
  signature : Option String
  deriving DecidableEq

structure MethodHeader where
  flags : AccessFlags .method
  name : String
  descriptor : String
  signature : Option String
  exceptions : List String
  deriving DecidableEq

namespace Resolver

variable (r : Resolver)

def resolveClassHeader (header : ClassHeader) : Resolution ClassHeader := do
  let name ← r.resolveClass header.name
  let superName ← header.superName.mapM r.resolveClass
  let interfaces ← header.interfaces.mapM r.resolveClass
  let signature ← r.resolveSignature header.signature
  return ⟨name, superName, interfaces, signature⟩

/-- The flags that a field keeps. -/
def keptFieldFlags (flags : AccessFlags .field) : AccessFlags .field :=
  if r.enforces || !flags.has staticFlag then flags.without volatileFlag else flags

def resolveField (header : FieldHeader) : Resolution FieldHeader := do
  let descriptor ← r.resolveDescriptor header.descriptor
  let signature ← r.resolveFieldSignature header.signature
  return ⟨r.keptFieldFlags header.flags, header.name, descriptor, signature⟩

def resolveMethod (header : MethodHeader) : Resolution MethodHeader := do
  let descriptor ← r.resolveMethodDescriptor header.descriptor
  let signature ← r.resolveSignature header.signature
  let exceptions ← header.exceptions.mapM r.resolveClass
  return ⟨header.flags.without synchronizedFlag, header.name, descriptor, signature, exceptions⟩

end Resolver

end ClassSandbox
