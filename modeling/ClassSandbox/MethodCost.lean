import ClassSandbox.Diagnostic
import ClassSandbox.Files.Access
import ClassSandbox.Hierarchy
import ClassSandbox.Text.Blank

/-!
# Method costs

What calls of trusted methods cost. A `CostTable` is read from a file with an entry on each line: the class
and the method, the cycles, and whether a call ends the current quantum. Every line has to be an entry, and
of two entries with the same key the later one counts.

`CostTable.lookup` finds the cost of a method, which a class inherits from its supertypes.
-/

namespace ClassSandbox

structure MethodCost where
  cycles : UInt32
  endsQuantum : Bool
  deriving DecidableEq, Repr

structure CostTable where
  /-- The costs by class and method, with a slash between them. -/
  costs : Std.HashMap String MethodCost

namespace CostTable

def empty : CostTable := ⟨∅⟩

/-- The cost of exactly this class and method. -/
def get? (table : CostTable) (key : String) : Option MethodCost := table.costs[key]?

def insert (table : CostTable) (key : String) (cost : MethodCost) : CostTable :=
  ⟨table.costs.insert key cost⟩

def size (table : CostTable) : Nat := table.costs.size

def isEmpty (table : CostTable) : Bool := table.costs.isEmpty

end CostTable

/-! ## Entries -/

namespace MethodCost

/-- Reads `true` or `false`, in letters of any case. -/
def readFlag (text : List Char) : Except CostFault Bool :=
  let lower := text.map Char.toLower
  if lower = "true".toList then .ok true
  else if lower = "false".toList then .ok false
  else .error (.badFlag (String.ofList text))

/-- What is wrong with the key of an entry, if anything. -/
def keyFault? (key : List Char) : Option CostFault :=
  match Text.splitLast? '/' key with
  | none => some (.bareMethod (String.ofList key))
  | some (owner, method) =>
    (BinaryName.fault? (String.ofList owner) <|> UnqualifiedName.fault? method).map .badName

/-- Reads an entry: its key and the cost. -/
def readEntry (line : List Char) : Except CostFault (String × MethodCost) :=
  match Text.words line with
  | [key, cycles, flag] =>
    match keyFault? key with
    | some fault => .error fault
    | none =>
      match Decimal.readBelow UInt32.size cycles with
      | .error fault => .error (.badCycles (String.ofList cycles) fault)
      | .ok number =>
        (readFlag flag).map fun endsQuantum => (String.ofList key, ⟨UInt32.ofNat number, endsQuantum⟩)
  | words => .error (.wordCount words.length)

end MethodCost

namespace CostTable

/-- Reads the lines of a file from the one with a number on. -/
def readLines (file : String) (number : Nat) (table : CostTable) :
    List (List Char) → Except SandboxFault CostTable
  | [] => .ok table
  | line :: rest =>
    match MethodCost.readEntry line with
    | .error fault => .error (.malformedResource file number fault)
    | .ok (key, cost) => readLines file (number + 1) (table.insert key cost) rest

/-- Reads the text of a file. -/
def parse (file text : String) : Except SandboxFault CostTable :=
  readLines file 1 empty (Text.lines text.toList)

/-- The name of the file with the costs. -/
def fileName : String := "MethodCosts.txt"

def load {m : Type → Type} [Monad m] [FileAccess m] (file : String) :
    m (Except SandboxFault CostTable) := do
  match ← readText file with
  | .error error => return .error (.resourceLoad file error)
  | .ok text => return parse file text

/-! ## Looking up -/

/-- The key of a method in a class. -/
def key (owner method : String) : String := owner ++ "/" ++ method

/-- The cost of a method of a class: its own, or else that of the first supertype that has one. Methods of
arrays are free, and so are methods whose class is not available, which is reported. -/
def lookup (table : CostTable) (h : Hierarchy) (owner method : String) :
    (Option MethodCost × Option Diagnostic) × Hierarchy :=
  if owner.toList.head? = some '[' then ((none, none), h)
  else
    match table.get? (key owner method) with
    | some cost => ((some cost, none), h)
    | none =>
      match h.supertypes owner with
      | (.error fault, h) => ((none, some (.unknownHierarchy owner fault.message)), h)
      | (.ok supertypes, h) =>
        ((supertypes.findSome? fun supertype => table.get? (key supertype method), none), h)

end CostTable

end ClassSandbox
