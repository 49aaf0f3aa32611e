import Std.Data.HashSet
import ClassSandbox.Fault
import ClassSandbox.Files.Access
import ClassSandbox.Text.Blank

/-!
# Policies

A policy says which classes a sandbox may mention: those of the allowed packages, except for the disallowed
classes. It is read from two resource files with a name on each line. `Policy.allows` decides.
-/

namespace ClassSandbox

structure Policy where
  allowedPackages : Std.HashSet String
  disallowedClasses : Std.HashSet String

namespace Policy

def ofLists (allowed disallowed : List String) : Policy := ⟨.ofList allowed, .ofList disallowed⟩

/-- The package of the class is allowed, which is all before the last slash. The default package never is. -/
def inAllowedPackage (policy : Policy) (name : String) : Bool :=
  match Text.splitLast? '/' name.toList with
  | some (package, _) => policy.allowedPackages.contains (String.ofList package)
  | none => false

def disallows (policy : Policy) (name : String) : Bool := policy.disallowedClasses.contains name

/-- The sandbox may mention the class. -/
def allows (policy : Policy) (name : String) : Bool := !policy.disallows name && policy.inAllowedPackage name

/-- A class is allowed by its package, unless it is disallowed itself. -/
theorem allows_ofLists (allowed disallowed : List String) (name : BinaryName) :
    (ofLists allowed disallowed).allows name.text =
      (!disallowed.contains name.text && name.package?.any allowed.contains) := by
  have hpackage : (ofLists allowed disallowed).inAllowedPackage name.text = name.package?.any allowed.contains := by
    rw [inAllowedPackage, BinaryName.package?]
    cases Text.splitLast? '/' name.text.toList <;> simp [ofLists]
  rw [allows, hpackage]
  simp [disallows, ofLists]

/-! ## Resource files -/

def allowedFile : String := "AllowedPackages.txt"

def disallowedFile : String := "DisallowedClasses.txt"

/-- The lines with a meaning, without the blanks around them. Empty lines and comments have none. -/
def resourceLines (text : String) : List String :=
  let trimmed := (Text.lines text.toList).map Text.trim
  (trimmed.filter fun line => !line.isEmpty && line.head? != some '#').map String.ofList

variable {m : Type → Type} [Monad m] [FileAccess m]

/-- The meaningful lines of a resource file. -/
def readLines (file : String) : m (Except SandboxFault (List String)) := do
  match ← readText file with
  | .error error => return .error (.resourceLoad file error)
  | .ok text => return .ok (resourceLines text)

/-- Reads a policy from the two files in a directory. -/
def load (directory : String) : m (Except SandboxFault Policy) := do
  match ← readLines (Path.join directory allowedFile) with
  | .error fault => return .error fault
  | .ok allowed =>
    match ← readLines (Path.join directory disallowedFile) with
    | .error fault => return .error fault
    | .ok disallowed => return .ok (ofLists allowed disallowed)

end Policy

end ClassSandbox
