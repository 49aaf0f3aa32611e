import ClassSandbox.Command

/-!
# The program

Runs a command on the files of the host. A misuse of the arguments shows how they are used.
-/

namespace ClassSandbox.Main

def fileError : IO.Error → FileError
  | .noFileOrDirectory _ _ _ => .notFound
  | .alreadyExists _ _ _ => .alreadyExists
  | .inappropriateType _ 20 _ => .notDirectory
  | .inappropriateType _ 21 _ => .isDirectory
  | error => .other (toString error)

def attempt {α : Type} (path : String) (action : IO α) : IO (Except FileError α) := do
  if path.toList.contains '\x00' then return .error .zeroInName
  try
    return .ok (← action)
  catch error =>
    return .error (fileError error)

def isDirectory (path : String) : IO Bool := (System.mkFilePath [path]).isDir

def isFile (path : String) : IO Bool := do
  match ← attempt path (System.mkFilePath [path]).metadata with
  | .ok metadata => return metadata.type == .file
  | .error _ => return false

/-- The class files in a directory. What cannot be looked at is left out. -/
partial def classFiles (directory : String) : IO (List String) := do
  match ← attempt directory (System.mkFilePath [directory]).readDir with
  | .error _ => return []
  | .ok entries =>
    let names := entries.toList.map fun entry => entry.fileName
    let found ← (names.mergeSort (· ≤ ·)).mapM fun name => do
      let path := Path.join directory name
      if ← isDirectory path then classFiles path
      else return if Path.isClassFile name && (← isFile path) then [path] else []
    return found.flatten

instance : FileAccess IO where
  readFile path := attempt path do return (← IO.FS.readBinFile path).toList
  isDirectory := isDirectory
  classFiles := classFiles
  save path contents := attempt path do
    if Path.parent path != "" then IO.FS.createDirAll (Path.parent path)
    IO.FS.writeBinFile path ⟨contents.toArray⟩

/-- Loads the classes that supertypes lead to. Those loaded before are in `found`, and the names that do
not load are in `faults`. -/
partial def loadAll (classPath pending : List String) (found : List (String × Bytes))
    (faults : List (String × LoadFault)) : IO ClassSource := do
  match pending with
  | [] => return ⟨found, fun name => (faults.lookup name).getD (.notOnClassPath name)⟩
  | name :: pending =>
    if (found.lookup name).isSome || (faults.lookup name).isSome then
      loadAll classPath pending found faults
    else
      match ← ClassPath.load classPath name with
      | .error fault => loadAll classPath pending found ((name, fault) :: faults)
      | .ok bytes =>
        let direct := ((ClassSource.ofList [(name, bytes)]).directSupertypes name).toOption.getD []
        loadAll classPath (direct ++ pending) ((name, bytes) :: found) faults

instance : Host IO where
  classSource classPath name := loadAll classPath [name] [] []

/-- The terminal shows colours. -/
def isColored : IO Bool := do
  if (← IO.getEnv "NO_COLOR").isSome then return false
  match ← IO.getEnv "TERM" with
  | none | some "dumb" => return false
  | some _ => return true

end ClassSandbox.Main

open ClassSandbox in
def main (arguments : List String) : IO UInt32 := do
  if (Request.ofArguments arguments).isNone then IO.eprint Command.usageText
  let outcome ← Command.run arguments
  IO.print (renderSpans (← Main.isColored) outcome.output)
  for message in outcome.log do
    IO.eprintln ("ERROR " ++ message)
  return outcome.exitCode.toUInt32
