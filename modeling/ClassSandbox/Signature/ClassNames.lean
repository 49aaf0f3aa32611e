import ClassSandbox.Signature

/-!
# The class names of a signature

`mapNames` replaces every class name that a signature mentions, in the order in which the names are
written. The name of a projection is relative to the class before it, so the function is given the full
name (`java/util/Map$Entry`), and the projection keeps what the result has after the new name of the class
before it and a dollar sign. A result that does not extend that name leaves the projection as it was.
Type variables and type parameters are no class names.
-/

namespace ClassSandbox

/-- The full name of a class nested in another. -/
def nestedName (outer inner : String) : String := outer ++ "$" ++ inner

/-- The name inside `outer` of a class with the full name `nested`. -/
def nestedName? (outer nested : String) : Option String :=
  match outer.toList.isPrefixOf? nested.toList with
  | some ('$' :: inner) => some (String.ofList inner)
  | _ => none

variable {m : Type → Type} [Monad m]

mutual

def TypeSignature.mapNames (f : String → m String) : TypeSignature → m TypeSignature
  | .base type => return .base type
  | .reference type => do return .reference (← type.mapNames f)

def ReferenceSignature.mapNames (f : String → m String) : ReferenceSignature → m ReferenceSignature
  | .object type => do return .object (← type.mapNames f)
  | .variable name => return .variable name
  | .array element => do return .array (← element.mapNames f)

def ClassTypeSignature.mapNames (f : String → m String) : ClassTypeSignature → m ClassTypeSignature
  | .mk (.mk name arguments) projections => do
    let newName ← f name
    let arguments ← mapArgumentNames f arguments
    let projections ← mapProjectionNames f name newName projections
    return .mk (.mk newName arguments) projections

/-- Replaces the names of projections from the class `outer`, which is now called `newOuter`. -/
def mapProjectionNames (f : String → m String) (outer newOuter : String) :
    List SimpleClassSignature → m (List SimpleClassSignature)
  | [] => return []
  | .mk name arguments :: rest => do
    let full := nestedName outer name
    let newFull ← f full
    let arguments ← mapArgumentNames f arguments
    let rest ← mapProjectionNames f full newFull rest
    return .mk ((nestedName? newOuter newFull).getD name) arguments :: rest

def mapArgumentNames (f : String → m String) : List TypeArgument → m (List TypeArgument)
  | [] => return []
  | argument :: rest => do
    let argument ← argument.mapNames f
    let rest ← mapArgumentNames f rest
    return argument :: rest

def TypeArgument.mapNames (f : String → m String) : TypeArgument → m TypeArgument
  | .wildcard => return .wildcard
  | .type bound type => do return .type bound (← type.mapNames f)

end

def TypeParameter.mapNames (f : String → m String) (parameter : TypeParameter) : m TypeParameter := do
  let classBound ← parameter.classBound.mapM fun bound => bound.mapNames f
  let interfaceBounds ← parameter.interfaceBounds.mapM fun bound => bound.mapNames f
  return ⟨parameter.name, classBound, interfaceBounds⟩

def ClassSignature.mapNames (f : String → m String) (signature : ClassSignature) : m ClassSignature := do
  let typeParameters ← signature.typeParameters.mapM fun parameter => parameter.mapNames f
  let superclass ← signature.superclass.mapNames f
  let superinterfaces ← signature.superinterfaces.mapM fun type => type.mapNames f
  return ⟨typeParameters, superclass, superinterfaces⟩

def MethodSignature.mapNames (f : String → m String) (signature : MethodSignature) : m MethodSignature := do
  let typeParameters ← signature.typeParameters.mapM fun parameter => parameter.mapNames f
  let parameters ← signature.parameters.mapM fun type => type.mapNames f
  let result ← signature.result.mapM fun type => type.mapNames f
  let throws ← signature.throws.mapM fun type => type.mapNames f
  return ⟨typeParameters, parameters, result, throws⟩

def GenericSignature.mapNames (f : String → m String) : GenericSignature → m GenericSignature
  | .ofClass signature => do return .ofClass (← signature.mapNames f)
  | .ofMethod signature => do return .ofMethod (← signature.mapNames f)

end ClassSandbox
