import ClassSandbox.ClassFile.Error
import ClassSandbox.Decimal.Natural
import ClassSandbox.Files.Error
import ClassSandbox.Name

/-!
# Faults of sandboxing

`Violation` is the one fault that belongs to a sandbox: its code mentions a class that it may not use, or
what it mentions is malformed. `SandboxFault` adds to it the ways in which names, resource files and class
files fail.
-/

namespace ClassSandbox

/-- A class name, descriptor or signature that the code of a sandbox may not mention. -/
structure Violation where
  /-- The name as the code has it. -/
  name : String
  /-- The package of the sandbox. -/
  sandbox : String
  deriving DecidableEq, Repr

def Violation.message (violation : Violation) : String :=
  s!"illegal class: {violation.name} cannot be referenced by player {violation.sandbox}"

/-- What is wrong with a line in a file of method costs. -/
inductive CostFault where
  | wordCount (found : Nat)
  /-- The key names no class. -/
  | bareMethod (key : String)
  | badName (fault : NameFault)
  | badCycles (text : String) (fault : Decimal.NumberFault)
  | badFlag (text : String)
  deriving DecidableEq, Repr

def CostFault.message : CostFault → String
  | wordCount found => s!"expected 3 tokens but found {found}"
  | bareMethod key => s!"'{key}' is not of the form Class/method"
  | badName fault => fault.message
  | badCycles text fault => s!"bad cost '{text}': " ++ fault.message
  | badFlag text => s!"bad boolean '{text}'"

inductive SandboxFault where
  /-- A file with a policy or with costs cannot be read. -/
  | resourceLoad (file : String) (error : FileError)
  | malformedResource (file : String) (line : Nat) (fault : CostFault)
  | violation (found : Violation)
  /-- The name of a namespace or of a sandbox. -/
  | malformedName (fault : NameFault)
  | classFile (fault : ClassFault)
  deriving DecidableEq

def SandboxFault.message : SandboxFault → String
  | resourceLoad file error =>
    s!"error loading {file}: " ++ error.message ++ " (check that the file exists and is not corrupted)"
  | malformedResource file line fault => s!"{file}:{line}: " ++ fault.message
  | violation found => found.message
  | malformedName fault => "malformed name: " ++ fault.message
  | classFile fault => fault.message

end ClassSandbox
