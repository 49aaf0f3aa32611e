import ClassSandbox.ClassFile
import ClassSandbox.Files.Error
import ClassSandbox.Name

/-!
# Sources of classes

A `ClassSource` gives the bytes of finitely many classes by their names, and for every other name it says
why there are none. `ClassSource.directSupertypes` reads a class and names what it extends and implements.
-/

namespace ClassSandbox

/-- Why a class cannot be loaded. -/
inductive LoadFault where
  | noClass (name : String)
  | badName (fault : NameFault)
  | notOnClassPath (name : String)
  | file (error : FileError)
  deriving DecidableEq, Repr

def LoadFault.message : LoadFault → String
  | noClass name => s!"no class {name}"
  | badName fault => fault.message
  | notOnClassPath name => s!"{name} is not on the class path"
  | file error => error.message

structure ClassSource where
  classes : List (String × Bytes)
  /-- Why a name that is not among them does not load. -/
  fault : String → LoadFault

/-- Why the supertypes of a class are not known. -/
inductive SupertypeFault where
  | load (fault : LoadFault)
  | classFile (fault : ClassFault)
  deriving DecidableEq

def SupertypeFault.message : SupertypeFault → String
  | load fault => fault.message
  | classFile fault => fault.message

namespace ClassFile

/-- The interfaces of the class in order, and then its superclass. -/
def directSupertypes (file : ClassFile) : Except ClassFault (List String) := do
  let interfaces ← file.interfaceNames
  let superName ← file.superName
  return interfaces ++ superName.toList

end ClassFile

namespace ClassSource

/-- Exactly some classes. -/
def ofList (classes : List (String × Bytes)) : ClassSource := ⟨classes, .noClass⟩

def load (source : ClassSource) (name : String) : Except LoadFault Bytes :=
  match source.classes.lookup name with
  | some bytes => .ok bytes
  | none => .error (source.fault name)

def directSupertypes (source : ClassSource) (name : String) : Except SupertypeFault (List String) :=
  match source.load name with
  | .error fault => .error (.load fault)
  | .ok bytes =>
    match ClassFile.parse bytes >>= ClassFile.directSupertypes with
    | .error fault => .error (.classFile fault)
    | .ok direct => .ok direct

theorem mem_classes_of_directSupertypes {source : ClassSource} {name : String} {direct : List String}
    (h : source.directSupertypes name = .ok direct) : ∃ bytes, (name, bytes) ∈ source.classes := by
  unfold directSupertypes load at h
  cases found : source.classes.lookup name with
  | none => simp [found] at h
  | some bytes =>
    obtain ⟨before, after, hclasses, -⟩ := List.lookup_eq_some_iff.1 found
    exact ⟨bytes, by simp [hclasses]⟩

end ClassSource

end ClassSandbox
