import ClassSandbox.ClassSource.Path
import ClassSandbox.Command.Output
import ClassSandbox.Command.Request
import ClassSandbox.Confinement
import ClassSandbox.MethodCost

/-!
# Commands

`run` answers a request, wherever the files are: it says what to print, what to log, and with which code
to exit. `confine` confines class files to a sandbox and saves them, `resolve` shows what names turn into,
and `cost` looks up the cost of a method.

The code is zero if all went well, one if some class or name did not pass, and two if the work could not
begin. It is 101 if the program breaks off in the middle.
-/

namespace ClassSandbox

/-- The files that commands work on, and the classes on a class path. -/
class Host (m : Type → Type) extends FileAccess m where
  /-- Has at least the classes that the search for the supertypes of a class leads to. -/
  classSource (classPath : List String) (name : String) : m ClassSource

instance : Host (StateM FileTree) where
  classSource classPath _ := do return ClassPath.source (← get) classPath

structure Outcome where
  exitCode : UInt8
  output : List Span
  log : List String
  deriving DecidableEq, Repr

/-- Why one file is not confined. -/
inductive FileFault where
  | input (error : FileError)
  | sandbox (fault : SandboxFault)
  /-- The class would be saved outside of the output directory. -/
  | unsafeName (name : String)
  | unwritable (fault : ClassFault)
  | output (error : FileError)
  deriving DecidableEq

def FileFault.message : FileFault → String
  | input error => error.message
  | sandbox fault => fault.message
  | unsafeName name => s!"refusing to write class '{name}' outside the output directory"
  | unwritable fault => "IO - " ++ fault.message
  | output error => "IO - " ++ error.message

namespace Command

variable {m : Type → Type} [Monad m] [Host m]

/-- The messages of the diagnostics that are shown without being asked for. -/
def logged (diagnostics : List Diagnostic) : List String :=
  (diagnostics.filter fun diagnostic => diagnostic.severity = .error).map Diagnostic.message

def startupFailure (reason : String) : Outcome :=
  ⟨2, [], logged [.startupFailure reason]⟩

/-- What is left of a program that breaks off. The message that it ends with is no part of its log. -/
def brokenOff : Outcome := ⟨101, [], []⟩

/-- The resolver for a sandbox, from what a command is told and from its policy. -/
def resolver (request : SandboxRequest) (mode : ViolationMode) (silenced : Bool) :
    m (Except SandboxFault Resolver) := do
  match BinaryName.ofString request.sandbox with
  | .error fault => return .error (.malformedName fault)
  | .ok sandbox =>
    match ← Policy.load request.policyDirectory with
    | .error fault => return .error fault
    | .ok policy =>
      return .ok ⟨{ Settings.standard with mode }, policy, sandbox, silenced, !request.trusted⟩

/-- The line that shows a violation below the name or the class that has it. -/
def detailLine (text : String) : Span := .styled .detail s!"    {text}\n"

/-! ## Confining -/

/-- The sum, if it fits into a machine word. -/
def wordSum? (a b : Nat) : Option Nat := if a + b < UInt64.size then some (a + b) else none

/-- The difference, unless it would be negative. -/
def wordDifference? (a b : Nat) : Option Nat := if b ≤ a then some (a - b) else none

/-- How many workers there may be. None are taken for one. -/
def workers (jobs : Nat) : Nat := max jobs 1

/-- How many files each worker gets, so that there are not too many workers. The last one may get fewer. There is no
such number if one on the way to it leaves the range of machine words. -/
def shareSize? (files jobs : Nat) : Option Nat := do
  let sum ← wordSum? files (workers jobs)
  let last ← wordDifference? sum 1
  return max (last / workers jobs) 1

/-- The items in runs of some length. -/
def shares {α : Type} (size : Nat) : List α → List (List α)
  | [] => []
  | item :: rest => (item :: rest.take (size - 1)) :: shares size (rest.drop (size - 1))
termination_by items => items.length
decreasing_by
  simp only [List.length_drop, List.length_cons]
  omega

/-- No item is lost and none moves. -/
theorem flatten_shares {α : Type} (size : Nat) (items : List α) : (shares size items).flatten = items := by
  fun_induction shares size items with
  | case1 => rfl
  | case2 item rest ih =>
    rw [List.flatten_cons, ih, List.cons_append, List.take_append_drop]

/-- The path of the file for a confined class, if it stays below the output directory. In lazy mode the class may keep
a malformed name, which could lead anywhere. -/
def outputPath (output name : String) : Except FileFault String :=
  let relative := ClassPath.fileName name
  if BinaryName.IsValid name ∧ (Path.components relative).all Path.Component.isNormal then
    .ok (Path.join output relative)
  else .error (.unsafeName name)

/-- A class that was saved, with the violations that it has. -/
structure Saved where
  name : String
  violations : List Violation

/-- Confines one file. The diagnostics come with the result. -/
def confineFile (r : Resolver) (output path : String) : m (Except FileFault Saved × List Diagnostic) := do
  match ← FileAccess.readFile path with
  | .error error => return (.error (.input error), [])
  | .ok bytes =>
    match ClassFile.parse bytes with
    | .error fault => return (.error (.sandbox (.classFile fault)), [])
    | .ok file =>
      let (result, findings) := (r.confine file).run.run .none
      let finish (result : Except FileFault Saved) : Except FileFault Saved × List Diagnostic :=
        (result, findings.diagnostics.toList)
      match result with
      | .error fault => return finish (.error (.sandbox fault))
      | .ok confined =>
        match confined.thisName with
        | .error fault => return finish (.error (.sandbox (.classFile fault)))
        | .ok name =>
          match outputPath output name, confined.toBytes with
          | .error fault, _ => return finish (.error fault)
          | .ok _, .error fault => return finish (.error (.unwritable fault))
          | .ok path, .ok bytes =>
            match ← FileAccess.save path bytes with
            | .error error => return finish (.error (.output error))
            | .ok () => return finish (.ok ⟨name, findings.violations.toList⟩)

/-- The files to confine: those named, and the class files in the directories named. -/
def inputFiles (inputs : List String) : m (List String) := do
  let files ← inputs.mapM fun input => do
    if ← FileAccess.isDirectory input then FileAccess.classFiles input else return [input]
  return files.flatten

/-- The class was saved without a violation. -/
def passed (result : Except FileFault Saved) : Bool :=
  match result with
  | .ok saved => saved.violations.isEmpty
  | .error _ => false

def describeFile (path : String) : Except FileFault Saved → List Span
  | .ok saved =>
    let tail := Span.plain s!" {saved.name} ({path})\n"
    if saved.violations.isEmpty then [.styled .done "rewrote", tail]
    else .styled .warning "violations" :: tail :: saved.violations.map fun found => detailLine found.message
  | .error fault => [.styled .failure "failed", .plain s!" {path}\n", detailLine fault.message]

def describeTotal (passed all : Nat) : Span := .styled .total s!"{passed}/{all} classes rewritten cleanly\n"

/-- The file with its result. -/
def confineEntry (r : Resolver) (output path : String) : m (String × Except FileFault Saved × List Diagnostic) := do
  return (path, ← confineFile r output path)

/-- Sums up the results for some number of files. -/
def summary (files : Nat) (results : List (String × Except FileFault Saved × List Diagnostic)) : Outcome :=
  let good := (results.filter fun entry => passed entry.2.1).length
  let lines := results.flatMap fun (path, result, _) => describeFile path result
  ⟨if good = files then 0 else 1, lines ++ [describeTotal good results.length],
    results.flatMap fun entry => logged entry.2.2⟩

def confine (request : ConfineRequest) : m Outcome := do
  let mode := if request.lazy then ViolationMode.lazy else ViolationMode.strict
  match ← resolver request.toSandboxRequest mode request.silent with
  | .error fault => return startupFailure fault.message
  | .ok r =>
    let files ← inputFiles request.inputs
    match shareSize? files.length request.jobCount with
    | none => return brokenOff
    | some size =>
      let work ← (shares size files).mapM fun share => share.mapM (confineEntry r request.output)
      return summary files.length work.flatten

/-! ## Resolving -/

/-- What a class name or a descriptor turns into, by the way it begins. -/
def resolveAny (r : Resolver) (name : String) : Resolution String :=
  let characters := name.toList
  if characters.head? = some '(' then r.resolveMethodDescriptor name
  else if characters.head? = some 'L' ∧ characters.getLast? = some ';' then r.resolveDescriptor name
  else r.resolveClass name

/-- Shows what a name turns into. Second, whether it is free of violations. -/
def describeName (r : Resolver) (name : String) : List Span × Bool × List Diagnostic :=
  let (result, findings) := (resolveAny r name).run.run .none
  let details := findings.violations.toList.map fun found => detailLine found.message
  let clean := findings.violations.isEmpty
  match result with
  | .ok resolved => (.plain s!"{name} -> {resolved}\n" :: details, clean, findings.diagnostics.toList)
  | .error fault =>
    (.styled .refused name :: .plain s!": {fault.message}\n" :: details, false, findings.diagnostics.toList)

def resolve (request : ResolveRequest) : m Outcome := do
  match ← resolver request.toSandboxRequest .lazy false with
  | .error fault => return startupFailure fault.message
  | .ok r =>
    let shown := request.names.map (describeName r)
    return ⟨if shown.all fun entry => entry.2.1 then 0 else 1, shown.flatMap fun entry => entry.1,
      shown.flatMap fun entry => logged entry.2.2⟩

/-! ## Costs -/

def describeCost (request : CostRequest) : Option MethodCost → String
  | some cost =>
    let ending := if cost.endsQuantum then " (ends the quantum)" else ""
    s!"{request.owner}/{request.method}: {cost.cycles} cycles{ending}\n"
  | none => s!"{request.owner}/{request.method}: no cost\n"

def cost (request : CostRequest) : m Outcome := do
  match ← CostTable.load (Path.join request.policyDirectory CostTable.fileName) with
  | .error fault => return startupFailure fault.message
  | .ok table =>
    let source ← Host.classSource request.classPath request.owner
    let ((found, diagnostic), _) := table.lookup (.ofSource source) request.owner request.method
    let line := Span.plain (describeCost request found)
    return ⟨if found.isSome then 0 else 1, [line], logged diagnostic.toList⟩

/-! ## Requests -/

def versionText : String := "classjail 0.1.0\n"

def usageText : String :=
  "Rewrite classes so that untrusted code runs inside a sandbox\n\n" ++
  "classjail rewrite --sandbox PACKAGE --output DIRECTORY [--policy-dir DIRECTORY] [--trusted] [--lazy]\n" ++
  "                  [--silent] [--jobs N] INPUT...\n" ++
  "classjail resolve --sandbox PACKAGE [--policy-dir DIRECTORY] [--trusted] NAME...\n" ++
  "classjail cost [--policy-dir DIRECTORY] [--classpath DIRECTORY]... CLASS METHOD\n"

/-- Does what the arguments of the program ask for. -/
def run (arguments : List String) : m Outcome :=
  match Request.ofArguments arguments with
  | none => return ⟨2, [], []⟩
  | some .version => return ⟨0, [.plain versionText], []⟩
  | some .help => return ⟨0, [.plain usageText], []⟩
  | some (.confine request) => confine request
  | some (.resolve request) => resolve request
  | some (.cost request) => cost request

end Command

end ClassSandbox
