import ClassSandbox.Descriptor.Parser
import ClassSandbox.Diagnostic
import ClassSandbox.Resolver
import ClassSandbox.Signature.ClassNames
import ClassSandbox.Signature.Parser

/-!
# Resolution

Resolution applies the verdicts of a resolver to class names, descriptors and generic signatures. What it
finds on the way is kept in `Findings`: the diagnostics, and in lazy mode the violations. In strict mode the
first violation is the result. A `Resolution` that fails keeps its findings.

`resolveClass`, `resolveDescriptor`, `resolveMethodDescriptor`, `resolveSignature` and
`resolveFieldSignature` are the operations.
-/

namespace ClassSandbox

structure Findings where
  /-- Each once, in the order in which they were first met. -/
  violations : Array Violation
  diagnostics : Array Diagnostic

namespace Findings

def none : Findings := ⟨#[], #[]⟩

def report (findings : Findings) (diagnostic : Diagnostic) : Findings :=
  { findings with diagnostics := findings.diagnostics.push diagnostic }

def note (findings : Findings) (violation : Violation) : Findings :=
  if findings.violations.contains violation then findings
  else { findings with violations := findings.violations.push violation }

end Findings

/-- A computation that gathers findings and may fail. -/
abbrev Resolution := ExceptT SandboxFault (StateM Findings)

namespace Resolver

variable (r : Resolver)

/-! ## Findings -/

def report (diagnostic : Diagnostic) : Resolution Unit := do
  unless r.silenced do modify fun findings => findings.report diagnostic

/-- Meets a name that the sandbox may not mention. -/
def refuse (name : String) : Resolution Unit := do
  let violation : Violation := ⟨name, r.sandbox.text⟩
  match r.settings.mode with
  | .strict =>
    r.report (.violation violation)
    throw (.violation violation)
  | .lazy =>
    r.report (.deferred violation)
    modify fun findings => findings.note violation

/-! ## Classes and descriptors -/

/-- What a class name or the name of an array class turns into. -/
def resolveClass (name : String) : Resolution String := do
  let verdict := r.verdict name
  if let some offender := verdict.offender? then r.refuse offender
  if verdict.resolved ≠ name then r.report (.redirected name verdict.resolved)
  return verdict.resolved

/-- A base type, or the `V` that stands for no result. -/
def isPlainType (text : List Char) : Bool :=
  match text with
  | [c] => c == 'V' || (BaseType.ofLetter? c).isSome
  | _ => false

/-- What the type of an element turns into. A text that is no type is reported and stays as it is. -/
def resolveElement (text : List Char) : Resolution String := do
  match objectClass? text with
  | some "" | none =>
    if !isPlainType text then r.report (.unrecognizedDescriptor (String.ofList text) r.sandbox.text)
    return String.ofList text
  | some name =>
    let resolved ← r.resolveClass name
    return String.ofList ('L' :: resolved.toList ++ [';'])

/-- What the descriptor of a field turns into. -/
def resolveDescriptor (descriptor : String) : Resolution String := do
  let dimensions := descriptor.toList.takeWhile (· == '[')
  let element ← r.resolveElement (descriptor.toList.dropWhile (· == '['))
  return String.ofList (dimensions ++ element.toList)

/-- What the descriptor of a method turns into. One that cannot be read is refused, and in lazy mode it
stays as it is. -/
def resolveMethodDescriptor (descriptor : String) : Resolution String := do
  match parseAll MethodDescriptor.read descriptor with
  | .error _ =>
    r.refuse descriptor
    return descriptor
  | .ok parsed =>
    let resolved ← parsed.mapClass fun name => do
      match BinaryName.ofString (← r.resolveClass name.text) with
      | .ok name => return name
      | .error fault => throw (.malformedName fault)
    return String.ofList resolved.render

/-! ## Signatures -/

/-- What an optional signature turns into. One that cannot be read is refused, and in lazy mode it is
dropped. -/
def resolveWith {α : Type} (parser : Parser α) (render : α → List Char)
    (mapNames : (String → Resolution String) → α → Resolution α) (signature? : Option String) :
    Resolution (Option String) := do
  match signature? with
  | none => return none
  | some signature =>
    match parseAll parser signature with
    | .error _ =>
      r.refuse signature
      return none
    | .ok parsed =>
      let resolved ← mapNames r.resolveClass parsed
      return some (String.ofList (render resolved))

/-- What the signature of a class or a method turns into. -/
def resolveSignature : Option String → Resolution (Option String) :=
  r.resolveWith GenericSignature.read GenericSignature.render GenericSignature.mapNames

/-- What the signature of a field turns into. -/
def resolveFieldSignature : Option String → Resolution (Option String) :=
  r.resolveWith ReferenceSignature.read ReferenceSignature.render ReferenceSignature.mapNames

end Resolver

end ClassSandbox
