import ClassSandbox.Files.Error
import ClassSandbox.Files.Path
import ClassSandbox.ModifiedUtf8

/-!
# Trees of files

A `FileTree` holds the files and directories below one directory, each at its location, which is the list
of names that lead to it. Paths are looked up part by part as the host does: `locate` finds the location
of what a path leads to, or says what is in the way. `createDirectories` and `writeFile` change the tree.

What lies outside of the directory is not part of the tree and is not found.
-/

namespace ClassSandbox

inductive FileNode where
  | file (contents : Bytes)
  | directory
  deriving DecidableEq, Repr

structure FileTree where
  nodes : List (List String × FileNode)

namespace FileTree

def empty : FileTree := ⟨[]⟩

instance : Inhabited FileTree := ⟨empty⟩

/-! ## Locations -/

/-- What is at a location. The tree itself is a directory. -/
def node? (tree : FileTree) (location : List String) : Option FileNode :=
  if location = [] then some .directory else tree.nodes.lookup location

def put (tree : FileTree) (location : List String) (node : FileNode) : FileTree :=
  ⟨(location, node) :: tree.nodes.filter fun entry => entry.1 != location⟩

/-- The files, with their locations in order. -/
def files (tree : FileTree) : List (List String × Bytes) :=
  let all := tree.nodes.filterMap fun (location, node) =>
    match node with
    | .file contents => some (location, contents)
    | .directory => none
  all.mergeSort fun a b => (compare a.1 b.1).isLE

/-- The files below a location, each with the rest of its location. The files of a directory come with
those of its subdirectories in the order of their names. -/
def filesBelow (tree : FileTree) (location : List String) : List (List String × Bytes) :=
  tree.files.filterMap fun (place, contents) =>
    match location.isPrefixOf? place with
    | some (part :: rest) => some (part :: rest, contents)
    | _ => none

/-! ## Paths -/

/-- The greatest length of a name, in bytes. -/
def longestName : Nat := 255

/-- The greatest length of a path, in bytes. -/
def longestPath : Nat := 4095

/-- What makes a path unfit for any file, wherever it leads. -/
def pathFault? (path : String) : Option FileError :=
  if path.toList.contains '\x00' then some .zeroInName
  else if longestPath < path.utf8ByteSize then some .nameTooLong
  else if path = "" ∨ path.toList.head? = some '/' then some .notFound
  else none

/-- The location to which some parts lead from the directory at `here`. -/
def descend (tree : FileTree) (here : List String) : List String → Except FileError (List String)
  | [] => .ok here
  | part :: rest =>
    if tree.node? here ≠ some .directory then .error .notDirectory
    else if Path.isHere part then descend tree here rest
    else if part = ".." then
      if here = [] then .error .notFound else descend tree here.dropLast rest
    else if longestName < part.utf8ByteSize then .error .nameTooLong
    else if (tree.node? (here ++ [part])).isNone then .error .notFound
    else descend tree (here ++ [part]) rest

/-- The location of what a path leads to. -/
def locate (tree : FileTree) (path : String) : Except FileError (List String) :=
  match pathFault? path with
  | some fault => .error fault
  | none => tree.descend [] (Path.parts path)

def isDirectory (tree : FileTree) (path : String) : Bool :=
  match tree.locate path with
  | .ok location => tree.node? location == some .directory
  | .error _ => false

def readFile (tree : FileTree) (path : String) : Except FileError Bytes := do
  match tree.node? (← tree.locate path) with
  | some (.file contents) => return contents
  | some .directory => throw .isDirectory
  | none => throw .notFound

/-- The paths of the class files below the directory to which a path leads. A file is left out if the path
to it is too long to look at it. -/
def classFiles (tree : FileTree) (path : String) : List String :=
  match tree.locate path with
  | .error _ => []
  | .ok location =>
    let classes := (tree.filesBelow location).filter fun entry => Path.isClassFile (entry.1.getLastD "")
    (classes.map fun entry => Path.join path ("/".intercalate entry.1)).filter fun file =>
      (pathFault? file).isNone

/-! ## Changes -/

/-- Creates the directories on the way along some parts from `here`, as far as nothing is in the way. -/
def extend (tree : FileTree) (here : List String) : List String → Except FileError Unit × FileTree
  | [] => (.ok (), tree)
  | part :: rest =>
    if part = ".." then
      if here = [] then (.error .notFound, tree) else extend tree here.dropLast rest
    else if longestName < part.utf8ByteSize then (.error .nameTooLong, tree)
    else
      let next := here ++ [part]
      match tree.node? next with
      | some .directory => extend tree next rest
      | some (.file _) => (.error (if rest = [] then .alreadyExists else .notDirectory), tree)
      | none => extend (tree.put next .directory) next rest

/-- Creates the directory to which a path leads, and those above it. -/
def createDirectories (tree : FileTree) (path : String) : Except FileError Unit × FileTree :=
  if path = "" then (.ok (), tree)
  else
    match pathFault? path with
    | some fault => (.error fault, tree)
    | none => tree.extend [] ((Path.parts path).filter fun part => !Path.isHere part)

/-- Creates or replaces the file with a name in the directory to which a path leads. -/
def writeFile (tree : FileTree) (directory name : String) (contents : Bytes) :
    Except FileError Unit × FileTree :=
  match pathFault? (Path.join directory name) with
  | some fault => (.error fault, tree)
  | none =>
    match tree.descend [] (Path.parts directory) with
    | .error fault => (.error fault, tree)
    | .ok here =>
      if longestName < name.utf8ByteSize then (.error .nameTooLong, tree)
      else if tree.node? (here ++ [name]) = some .directory then (.error .isDirectory, tree)
      else (.ok (), tree.put (here ++ [name]) (.file contents))

end FileTree

end ClassSandbox
