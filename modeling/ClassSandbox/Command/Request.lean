import ClassSandbox.Decimal.Natural

/-!
# Requests

What the program is asked to do, as its arguments say. `Request.ofArguments` reads them from left to right,
and the first that does not fit makes them a misuse, whatever follows. Options and plain arguments may be
mixed. A value follows its option, or is joined to it: `--jobs 4`, `--jobs=4`, `-j 4`, `-j=4` or `-j4`.
After `--` there are only plain arguments.
-/

namespace ClassSandbox

/-- What every command that resolves names is told. -/
structure SandboxRequest where
  sandbox : String
  policyDirectory : String
  /-- The classes are trusted, and the policy does not apply to them. -/
  trusted : Bool
  deriving DecidableEq, Repr

structure ConfineRequest extends SandboxRequest where
  lazy : Bool
  silent : Bool
  jobs : Option UInt64
  output : String
  inputs : List String
  deriving DecidableEq, Repr

/-- How many jobs there may be. It makes no difference to the results, so one will do where nothing is asked for. -/
def ConfineRequest.jobCount (request : ConfineRequest) : Nat := (request.jobs.getD 1).toNat

structure ResolveRequest extends SandboxRequest where
  names : List String
  deriving DecidableEq, Repr

structure CostRequest where
  policyDirectory : String
  classPath : List String
  owner : String
  method : String
  deriving DecidableEq, Repr

inductive Request where
  | version
  | help
  | confine (request : ConfineRequest)
  | resolve (request : ResolveRequest)
  | cost (request : CostRequest)
  deriving DecidableEq, Repr

/-! ## Options -/

/-- The arguments do not say what to do. -/
inductive Stop where
  | misuse
  /-- They ask for help, before anything is wrong with them. -/
  | help
  deriving DecidableEq, Repr

structure CommandOption where
  long : String
  short : Option Char
  takesValue : Bool
  /-- It may be given more than once. -/
  repeatable : Bool
  accepts : String → Bool

/-- The options and plain arguments that a command takes. -/
structure CommandForm where
  options : List CommandOption
  /-- The greatest number of plain arguments, if there is one. -/
  most : Option Nat
  accepts : String → Bool

/-- The options and plain arguments that a command was given. -/
structure Given where
  /-- Each option with its value, which is empty for an option that takes none. -/
  options : List (String × String)
  plain : List String

namespace Given

def values (given : Given) (long : String) : List String :=
  (given.options.filter fun option => option.1 == long).map Prod.snd

def value? (given : Given) (long : String) : Option String := (given.values long).head?

def has (given : Given) (long : String) : Bool := (given.value? long).isSome

end Given

namespace CommandForm

variable (form : CommandForm)

def addOption (given : Given) (option : CommandOption) (value : String) : Except Stop Given :=
  if given.has option.long && !option.repeatable then .error .misuse
  else if !option.accepts value then .error .misuse
  else .ok { given with options := given.options ++ [(option.long, value)] }

def addPlain (given : Given) (value : String) : Except Stop Given :=
  if form.most.any fun most => most ≤ given.plain.length then .error .misuse
  else if !form.accepts value then .error .misuse
  else .ok { given with plain := given.plain ++ [value] }

/-- The text cannot be a value on its own, since it is an option or stands before the plain arguments. -/
def looksLikeOption (text : String) : Bool :=
  match text.toList with
  | '-' :: _ :: _ => true
  | _ => false

/-- What a text says before and after its first equals sign, if there is one. -/
def splitValue (text : List Char) : String × Option String :=
  match text.dropWhile (· != '=') with
  | [] => (String.ofList text, none)
  | _ :: value => (String.ofList (text.takeWhile (· != '=')), some (String.ofList value))

/-- An argument that begins with a hyphen: the option, and the value that is joined to it. -/
def findOption (argument : List Char) : Except Stop (CommandOption × Option String) :=
  match argument with
  | '-' :: '-' :: name =>
    let (name, value?) := splitValue name
    match form.options.find? fun option => option.long == name with
    | some option => .ok (option, value?)
    | none => .error (if name = "help" ∧ value? = none then .help else .misuse)
  | _ :: letter :: rest =>
    match form.options.find? fun option => option.short == some letter with
    | some option =>
      match rest with
      | [] => .ok (option, none)
      | '=' :: value => .ok (option, some (String.ofList value))
      | value => .ok (option, some (String.ofList value))
    | none => .error (if letter = 'h' then .help else .misuse)
  | _ => .error .misuse

/-- Reads the arguments of a command, after those that were given before. -/
def read (given : Given) : List String → Except Stop Given
  | [] => .ok given
  | "--" :: rest => rest.foldlM form.addPlain given
  | argument :: rest => do
    if looksLikeOption argument then
      match ← form.findOption argument.toList with
      | (option, some value) =>
        if option.takesValue then read (← addOption given option value) rest else .error .misuse
      | (option, none) =>
        if option.takesValue then
          match rest with
          | value :: rest =>
            if looksLikeOption value then .error .misuse else read (← addOption given option value) rest
          | [] => .error .misuse
        else read (← addOption given option "") rest
    else read (← form.addPlain given argument) rest

end CommandForm

/-! ## Commands -/

namespace CommandOption

def flag (long : String) : CommandOption := ⟨long, none, false, false, fun _ => true⟩

def text (long : String) : CommandOption := ⟨long, none, true, false, fun _ => true⟩

/-- An option whose value is a path. No path is empty. -/
def path (long : String) (short : Option Char) : CommandOption := ⟨long, short, true, false, (· != "")⟩

def number (long : String) (short : Char) : CommandOption :=
  ⟨long, some short, true, false, fun value =>
    (Decimal.readBelow UInt64.size value.toList).toOption.isSome⟩

end CommandOption

open CommandOption

def confineForm : CommandForm where
  options := [text "sandbox", path "policy-dir" none, flag "trusted", flag "lazy", flag "silent",
    number "jobs" 'j', path "output" (some 'o')]
  most := none
  accepts := (· != "")

def resolveForm : CommandForm where
  options := [text "sandbox", path "policy-dir" none, flag "trusted"]
  most := none
  accepts := fun _ => true

def costForm : CommandForm where
  options := [path "policy-dir" none, { path "classpath" none with repeatable := true }]
  most := some 2
  accepts := fun _ => true

namespace Given

variable (given : Given)

/-- The directory with the policy and the costs. It is the current one if nothing else is said. -/
def policyDirectory : String := (given.value? "policy-dir").getD "."

def sandbox? : Option SandboxRequest :=
  (given.value? "sandbox").map fun sandbox => ⟨sandbox, given.policyDirectory, given.has "trusted"⟩

def confine? : Option ConfineRequest := do
  let sandbox ← given.sandbox?
  let output ← given.value? "output"
  if given.plain.isEmpty then none
  let jobs := (given.value? "jobs").bind fun value => (Decimal.readBelow UInt64.size value.toList).toOption
  return { sandbox with
    lazy := given.has "lazy"
    silent := given.has "silent"
    jobs := jobs.map UInt64.ofNat
    output := output
    inputs := given.plain }

def resolve? : Option ResolveRequest := do
  let sandbox ← given.sandbox?
  if given.plain.isEmpty then none
  return { sandbox with names := given.plain }

def cost? : Option CostRequest :=
  match given.plain with
  | [owner, method] => some ⟨given.policyDirectory, given.values "classpath", owner, method⟩
  | _ => none

end Given

namespace Request

/-- Reads the arguments of a command that has a form, and makes a request of them. -/
def ofForm {α : Type} (form : CommandForm) (make : Given → Option α) (request : α → Request)
    (arguments : List String) : Option Request :=
  match form.read ⟨[], []⟩ arguments with
  | .ok given => (make given).map request
  | .error .help => some .help
  | .error .misuse => none

/-- The names of the commands. -/
def commandNames : List String := ["rewrite", "resolve", "cost", "help"]

/-- What the arguments ask for, or nothing if they are a misuse. -/
def ofArguments : List String → Option Request
  | "rewrite" :: rest => ofForm confineForm Given.confine? .confine rest
  | "resolve" :: rest => ofForm resolveForm Given.resolve? .resolve rest
  | "cost" :: rest => ofForm costForm Given.cost? .cost rest
  | ["help"] | "--help" :: _ => some .help
  | ["help", name] => if commandNames.contains name then some .help else none
  | "--version" :: _ => some .version
  | first :: _ =>
    match first.toList with
    | '-' :: 'V' :: _ => some .version
    | '-' :: 'h' :: _ => some .help
    | _ => none
  | [] => none

end Request

end ClassSandbox
