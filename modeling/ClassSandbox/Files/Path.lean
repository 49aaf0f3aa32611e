import ClassSandbox.Text.Blank

/-!
# Paths

A path is a text with its parts between slashes. `join` puts a path below a directory, `parts` cuts a path, and
`fileName` and `parent` are its last part and the directory that this is looked up in. `components` says what the
parts mean: to start at the root, to go up, to stay, or to go on to a name.
-/

namespace ClassSandbox.Path

/-- A path below a directory. One that starts at the root leaves the directory. -/
def join (directory path : String) : String :=
  if path.toList.head? = some '/' then path
  else if directory = "" ∨ directory.toList.getLast? = some '/' then directory ++ path
  else directory ++ "/" ++ path

/-- The parts of a path. Two slashes in a row have an empty part between them. -/
def parts (path : String) : List String := (path.toList.splitOn '/').map String.ofList

/-- The part stays in the directory that it is looked up in. -/
def isHere (part : String) : Bool := part == "" || part == "."

/-- The last part of a path. -/
def fileName (path : String) : String :=
  match Text.splitLast? '/' path.toList with
  | some (_, last) => String.ofList last
  | none => path

/-- The directory that the last part of a path is looked up in. -/
def parent (path : String) : String :=
  match Text.splitLast? '/' path.toList with
  | some ([], _) => "/"
  | some (directory, _) => String.ofList directory
  | none => ""

/-- The file is a compiled class, by its name. The dot that starts a hidden file starts no extension. -/
def isClassFile (name : String) : Bool :=
  ".class".toList.isSuffixOf name.toList && name != ".class"

/-! ## Components -/

/-- What a part of a path means. -/
inductive Component where
  | root
  /-- Only a path that starts with it is told from one without it. -/
  | here
  | above
  | normal (name : String)
  deriving DecidableEq, Repr

namespace Component

def isNormal : Component → Bool
  | normal _ => true
  | _ => false

def ofPart? (part : String) : Option Component :=
  if isHere part then none else if part = ".." then some .above else some (.normal part)

/-- What the first part means by being the first. -/
def start : List String → List Component
  | [] => []
  | first :: rest => if first = "" ∧ rest ≠ [] then [.root] else if first = "." then [.here] else []

end Component

def components (path : String) : List Component :=
  Component.start (parts path) ++ (parts path).filterMap Component.ofPart?

end ClassSandbox.Path
