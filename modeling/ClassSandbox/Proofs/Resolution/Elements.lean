import ClassSandbox.Proofs.Descriptor.RoundTrip
import ClassSandbox.Proofs.Outcome
import ClassSandbox.Proofs.Resolution.ArrayClass
import ClassSandbox.Resolution

/-!
# Elements of descriptors

A field descriptor is an element behind brackets (`resolveDescriptor_eq`), and an element either mentions a
class (`resolveElement_of_class`, `resolveDescriptor_objectArray`) or stays as it is (`resolveElement_of_plain`). In
a method descriptor that can be read every name turns into another one (`resolveMethodDescriptor_eq`).
-/

namespace ClassSandbox

/-- A text that mentions no class, as far as the marks around it tell. -/
def IsPlain (text : List Char) : Prop := ∀ name, objectClass? text = some name → name = ""

theorem isPlain_or_exists (text : List Char) :
    IsPlain text ∨ ∃ name, name ≠ "" ∧ text = 'L' :: name.toList ++ [';'] := by
  cases hclass : objectClass? text with
  | none => exact .inl fun name h => nomatch hclass.symm.trans h
  | some name =>
    by_cases hne : name = ""
    · refine .inl fun other h => ?_
      rw [hclass, Option.some.injEq] at h
      rw [← h, hne]
    · exact .inr ⟨name, hne, objectClass?_eq_some_iff.1 hclass⟩

namespace Resolver

variable (r : Resolver)

/-- Reports a text that is no type. -/
def reportElement (text : List Char) : Resolution Unit :=
  if isPlainType text then pure () else r.report (.unrecognizedDescriptor (String.ofList text) r.sandbox.text)

theorem resolveElement_of_plain {text : List Char} (h : IsPlain text) :
    r.resolveElement text = do
      r.reportElement text
      return String.ofList text := by
  have hplain : (do
      if !isPlainType text then r.report (.unrecognizedDescriptor (String.ofList text) r.sandbox.text)
      return String.ofList text) = (do r.reportElement text; return String.ofList text) := by
    unfold reportElement
    cases isPlainType text <;> simp
  unfold resolveElement
  split
  · exact hplain
  · exact hplain
  · rename_i name hne hclass
    exact absurd (h name hclass) hne

theorem resolveElement_of_class {name : String} (hne : name ≠ "") :
    r.resolveElement ('L' :: name.toList ++ [';']) = do
      return String.ofList ('L' :: (← r.resolveClass name).toList ++ [';']) := by
  unfold resolveElement
  rw [objectClass?_eq_some_iff.2 rfl]
  split
  · rename_i h
    exact absurd (Option.some.inj h) hne
  · rename_i h
    cases h
  · rename_i h
    cases h
    rfl

/-- The brackets in front of an element stay. -/
theorem resolveDescriptor_eq (dimensions : Nat) {element : List Char} (hstop : element.head? ≠ some '[') :
    r.resolveDescriptor (String.ofList (List.replicate dimensions '[' ++ element)) = do
      return String.ofList (List.replicate dimensions '[' ++ (← r.resolveElement element).toList) := by
  obtain ⟨htake, hdrop⟩ := scan_replicate_append dimensions hstop
  rw [resolveDescriptor, String.toList_ofList, htake, hdrop]

/-- In the descriptor of a class, or of an array of it, the class is resolved. -/
theorem resolveDescriptor_objectArray (dimensions : Nat) {name : String} (hne : name ≠ "") :
    r.resolveDescriptor (objectArray dimensions name) = do
      return objectArray dimensions (← r.resolveClass name) := by
  have hstop : ('L' :: name.toList ++ [';']).head? ≠ some '[' := by simp
  have harray : objectArray dimensions name =
      String.ofList (List.replicate dimensions '[' ++ ('L' :: name.toList ++ [';'])) := by
    rw [objectArray, List.append_assoc]
  rw [harray, resolveDescriptor_eq r dimensions hstop, resolveElement_of_class r hne]
  simp [objectArray]

theorem head?_resolveElement {text : List Char} (hstop : text.head? ≠ some '[') {resolved : String}
    (h : MayGive (r.resolveElement text) resolved) : resolved.toList.head? ≠ some '[' := by
  rcases isPlain_or_exists text with hplain | ⟨name, hne, rfl⟩
  · rw [resolveElement_of_plain r hplain] at h
    obtain ⟨_, -, h⟩ := mayGive_bind h
    obtain rfl := mayGive_pure h
    rwa [String.toList_ofList]
  · rw [resolveElement_of_class r hne] at h
    obtain ⟨_, -, h⟩ := mayGive_bind h
    obtain rfl := mayGive_pure h
    simp

/-- A class name in a method descriptor has to turn into another one. -/
def resolveName (name : BinaryName) : Resolution BinaryName := do
  match BinaryName.ofString (← r.resolveClass name.text) with
  | .ok name => return name
  | .error fault => throw (.malformedName fault)

theorem mayGive_resolveName {name resolved : BinaryName} (h : MayGive (r.resolveName name) resolved) :
    MayGive (r.resolveClass name.text) resolved.text := by
  obtain ⟨text, htext, h⟩ := mayGive_bind h
  split at h
  · rename_i hname
    obtain rfl := mayGive_pure h
    rwa [BinaryName.text_of_ofString hname]
  · obtain ⟨_, _, h⟩ := h
    cases h

theorem resolveMethodDescriptor_eq (parsed : MethodDescriptor BinaryName) :
    r.resolveMethodDescriptor (String.ofList parsed.render) = do
      return String.ofList (← parsed.mapClass r.resolveName).render := by
  rw [resolveMethodDescriptor, MethodDescriptor.parseAll_read_iff.2 rfl]
  rfl

theorem resolveMethodDescriptor_of_error {descriptor : String} {fault : SyntaxFault}
    (h : parseAll MethodDescriptor.read descriptor = .error fault) :
    r.resolveMethodDescriptor descriptor = do
      r.refuse descriptor
      return descriptor := by
  rw [resolveMethodDescriptor, h]

end Resolver

end ClassSandbox
