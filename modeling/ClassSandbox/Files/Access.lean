import ClassSandbox.Files.Tree

/-!
# Access to files

`FileAccess m` is what the library needs of the host's files, whatever the monad `m` in which they are at
hand. A tree of files that is carried along as a state gives all of it.
-/

namespace ClassSandbox

class FileAccess (m : Type → Type) where
  readFile (path : String) : m (Except FileError Bytes)
  isDirectory (path : String) : m Bool
  /-- The class files in a directory and below it, depth first and in the order of their names. What cannot be
  looked at is left out. -/
  classFiles (directory : String) : m (List String)
  /-- Writes the file at a path. The directory that it is in is created if need be. -/
  save (path : String) (contents : Bytes) : m (Except FileError Unit)

namespace FileTree

/-- Writes the file with a name in a directory, which is created if need be. -/
def save (directory name : String) (contents : Bytes) (tree : FileTree) : Except FileError Unit × FileTree :=
  match tree.createDirectories directory with
  | (.error error, tree) => (.error error, tree)
  | (.ok (), tree) => tree.writeFile directory name contents

instance : FileAccess (StateM FileTree) where
  readFile path := do return (← get).readFile path
  isDirectory path := do return (← get).isDirectory path
  classFiles directory := do return (← get).classFiles directory
  save path contents := save (Path.parent path) (Path.fileName path) contents

end FileTree

/-- The contents of a file that holds text in UTF-8. -/
def readText {m : Type → Type} [Monad m] [FileAccess m] (path : String) : m (Except FileError String) := do
  match ← FileAccess.readFile path with
  | .error error => return .error error
  | .ok contents =>
    match String.fromUTF8? ⟨contents.toArray⟩ with
    | some text => return .ok text
    | none => return .error .notText

end ClassSandbox
