import ClassSandbox.ClassSource
import ClassSandbox.Files.Access

/-!
# Class paths

A class path is a list of directories. A class is looked up in one after the other, as a file whose path
is the name of the class. Only a missing file sends the search on to the next directory.
-/

namespace ClassSandbox.ClassPath

def suffix : String := ".class"

/-- The path of the file with a class, in the directory of the class path that holds it. -/
def fileName (name : String) : String := name ++ suffix

section Access

variable {m : Type → Type} [Monad m] [FileAccess m]

/-- Reads a class from the first of some directories that has it. -/
def search (name : String) : List String → m (Except LoadFault Bytes)
  | [] => return .error (.notOnClassPath name)
  | root :: roots => do
    match ← FileAccess.readFile (Path.join root (fileName name)) with
    | .ok bytes => return .ok bytes
    | .error .notFound => search name roots
    | .error error => return .error (.file error)

/-- The name is checked first, so that nothing outside of the directories is read. -/
def load (roots : List String) (name : String) : m (Except LoadFault Bytes) := do
  match BinaryName.fault? name with
  | some fault => return .error (.badName fault)
  | none => search name roots

end Access

/-! ## In a tree of files -/

/-- The class to which the file at a location belongs, if it is a class file. -/
def className? (location : List String) : Option String :=
  if Path.isClassFile (location.getLastD "") then
    let path := ("/".intercalate location).toList
    some (String.ofList (path.take (path.length - suffix.length)))
  else none

/-- The names of the classes below a directory. -/
def classNames (tree : FileTree) (root : String) : List String :=
  match tree.locate root with
  | .error _ => []
  | .ok location => (tree.filesBelow location).filterMap fun entry => className? entry.1

def loadFrom (tree : FileTree) (roots : List String) (name : String) : Except LoadFault Bytes :=
  ((load roots name : StateM FileTree (Except LoadFault Bytes)).run tree).1

/-- All the classes on a class path. -/
def source (tree : FileTree) (roots : List String) : ClassSource where
  classes := (roots.flatMap (classNames tree)).filterMap fun name =>
    (loadFrom tree roots name).toOption.map fun bytes => (name, bytes)
  fault := fun name =>
    match loadFrom tree roots name with
    | .error fault => fault
    | .ok _ => .notOnClassPath name

end ClassSandbox.ClassPath
