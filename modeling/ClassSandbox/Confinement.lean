import ClassSandbox.ClassFile
import ClassSandbox.Resolution.Header

/-!
# Confining class files

`Resolver.confine` applies resolution to every name in a class file. First come the header, the fields and
the methods, with their signatures and exceptions. Then comes every constant that none of them has led to:
classes, pairs of a name and a descriptor, and method types. Those are all the places through which code
and the other attributes mention classes.

A text constant is never changed, since it may also be a string literal. New texts go to the end of the
pool, and the constants that name classes or types are replaced by ones with the same index.
-/

namespace ClassSandbox

/-- The pool on the way, and the classes in it that are done. -/
structure PoolEditor where
  pool : ConstantPool
  settled : Std.HashSet ConstantIndex

abbrev Confinement := StateT PoolEditor Resolution

namespace Confinement

variable {α : Type}

/-- An action on the pool. -/
def onPool (action : PoolAction α) : Confinement α := fun ⟨pool, settled⟩ =>
  match action.run.run pool with
  | (.ok result, pool) => return (result, ⟨pool, settled⟩)
  | (.error fault, _) => throw (.classFile fault)

/-- Something that is read off the pool. -/
def fromPool (read : ConstantPool → Except ClassFault α) : Confinement α := do
  match read (← get).pool with
  | .ok result => return result
  | .error fault => throw (.classFile fault)

/-- Gives a class constant a resolved name. A constant that is reached in several ways is settled by the
first. -/
def setClass (index : ConstantIndex) (resolved : String) : Confinement Unit := do
  if (← get).settled.contains index then return
  modify fun editor => { editor with settled := editor.settled.insert index }
  let current ← fromPool fun pool => pool.classNameAt index
  if current ≠ resolved then
    let name ← onPool (PoolAction.text resolved)
    onPool (PoolAction.replace index (.classRef name))

/-- The index of a text that takes the place of another. -/
def newText (index : ConstantIndex) (old new : String) : Confinement ConstantIndex := do
  if old = new then return index else onPool (PoolAction.text new)

/-! ## Signatures -/

/-- The signature that the first attribute of its kind gives. -/
def firstSignature (pool : ConstantPool) : List Attribute → Except ClassFault (Option String)
  | [] => .ok none
  | item :: rest => do
    match ← item.decodeAs signatureKind pool with
    | some signature => return some (← pool.textAt signature)
    | none => firstSignature pool rest

/-- The position of the first attribute that is a signature, where the first attribute has the position
`position`. -/
def signaturePosition? (pool : ConstantPool) (position : Nat) :
    List Attribute → Except ClassFault (Option Nat)
  | [] => .ok none
  | item :: rest => do
    if (← pool.textAt item.name) = signatureKind.name then return some position
    signaturePosition? pool (position + 1) rest

/-- The attributes with another signature, or without the first one if there is none. -/
def setSignature (items : List Attribute) (old new : Option String) : Confinement (List Attribute) := do
  if old = new then return items
  match ← fromPool fun pool => signaturePosition? pool 0 items with
  | none => return items
  | some position =>
    match new with
    | none => return items.eraseIdx position
    | some signature =>
      let signature ← onPool (PoolAction.text signature)
      let item ← onPool (signatureKind.write signature)
      return items.set position item

/-- The classes in all the exceptions that the attributes declare. -/
def declaredExceptions (pool : ConstantPool) (items : List Attribute) :
    Except ClassFault (List ConstantIndex) := do
  let found ← items.mapM fun item => item.decodeAs exceptionsKind pool
  return found.flatMap fun exceptions? => exceptions?.getD []

end Confinement

/-! ## The parts of a class -/

open Confinement

namespace ClassFile

def header (file : ClassFile) : Except ClassFault ClassHeader := do
  let name ← file.thisName
  let superName ← file.superName
  let interfaces ← file.interfaceNames
  let signature ← firstSignature file.pool file.attributes
  return ⟨name, superName, interfaces, signature⟩

end ClassFile

namespace Member

def fieldHeader (field : Field) (pool : ConstantPool) : Except ClassFault FieldHeader := do
  let name ← pool.textAt field.name
  let descriptor ← pool.textAt field.descriptor
  let signature ← firstSignature pool field.attributes
  return ⟨field.flags, name, descriptor, signature⟩

def methodHeader (method : Method) (exceptions : List ConstantIndex) (pool : ConstantPool) :
    Except ClassFault MethodHeader := do
  let name ← pool.textAt method.name
  let descriptor ← pool.textAt method.descriptor
  let signature ← firstSignature pool method.attributes
  let exceptions ← exceptions.mapM pool.classNameAt
  return ⟨method.flags, name, descriptor, signature, exceptions⟩

end Member

namespace Resolver

variable (r : Resolver)

/-- Confines the names in the header of a class, whose attributes it returns. -/
def confineHeader (file : ClassFile) : Confinement (List Attribute) := do
  let header ← fromPool fun _ => file.header
  let resolved ← r.resolveClassHeader header
  setClass file.thisClass resolved.name
  match file.superClass, resolved.superName with
  | some index, some name => setClass index name
  | _, _ => pure ()
  (file.interfaces.zip resolved.interfaces).forM fun (index, name) => setClass index name
  setSignature file.attributes header.signature resolved.signature

def confineField (field : Field) : Confinement Field := do
  let header ← fromPool field.fieldHeader
  let resolved ← r.resolveField header
  let descriptor ← newText field.descriptor header.descriptor resolved.descriptor
  let attributes ← setSignature field.attributes header.signature resolved.signature
  return ⟨resolved.flags, field.name, descriptor, attributes⟩

def confineMethod (method : Method) : Confinement Method := do
  let exceptions ← fromPool fun pool => declaredExceptions pool method.attributes
  let header ← fromPool (method.methodHeader exceptions)
  let resolved ← r.resolveMethod header
  let descriptor ← newText method.descriptor header.descriptor resolved.descriptor
  let attributes ← setSignature method.attributes header.signature resolved.signature
  (exceptions.zip resolved.exceptions).forM fun (index, name) => setClass index name
  return ⟨resolved.flags, method.name, descriptor, attributes⟩

/-- What the descriptor of a field or a method turns into. -/
def resolveAnyDescriptor (descriptor : String) : Resolution String :=
  if descriptor.toList.head? = some '(' then r.resolveMethodDescriptor descriptor
  else r.resolveDescriptor descriptor

/-- Confines a constant that mentions a class, unless that is done. -/
def confineConstant (index : ConstantIndex) : Constant → Confinement Unit
  | .classRef name => do
    if (← get).settled.contains index then return
    let old ← fromPool fun pool => pool.textAt name
    let new ← r.resolveClass old
    if old ≠ new then
      let name ← onPool (PoolAction.text new)
      onPool (PoolAction.replace index (.classRef name))
  | .nameAndType name descriptor => do
    let old ← fromPool fun pool => pool.textAt descriptor
    let new ← r.resolveAnyDescriptor old
    if old ≠ new then
      let descriptor ← onPool (PoolAction.text new)
      onPool (PoolAction.replace index (.nameAndType name descriptor))
  | .methodType descriptor => do
    let old ← fromPool fun pool => pool.textAt descriptor
    let new ← r.resolveMethodDescriptor old
    if old ≠ new then
      let descriptor ← onPool (PoolAction.text new)
      onPool (PoolAction.replace index (.methodType descriptor))
  | _ => pure ()

/-- Confines all the parts of a class, in an editor of its pool. -/
def confineParts (file : ClassFile) : Confinement ClassFile := do
  let attributes ← r.confineHeader file
  let fields ← file.fields.mapM r.confineField
  let methods ← file.methods.mapM r.confineMethod
  let constants := (← get).pool.constants.toList
  constants.forM fun (offset, constant) => r.confineConstant (UInt16.ofNat offset) constant
  return { file with pool := (← get).pool, fields, methods, attributes }

/-- The class as the sandbox may load it. -/
def confine (file : ClassFile) : Resolution ClassFile := do
  let (confined, _) ← (r.confineParts file).run ⟨file.pool, ∅⟩
  return confined

end Resolver

end ClassSandbox
