import ClassSandbox.Descriptor
import ClassSandbox.Grammar.Read

/-!
# Reading descriptors

One parser for each type of descriptor: `BaseType.read`, `BinaryName.read`, `RefType.read`,
`FieldType.read` and `MethodDescriptor.read`. Class names are checked as they are read.
-/

namespace ClassSandbox

def BaseType.read : Parser BaseType
  | [] => .error .missingBaseType
  | c :: rest =>
    match BaseType.ofLetter? c with
    | some type => .ok ⟨type, rest, length_lt_cons c rest⟩
    | none => .error (.badBaseType c)

/-- Reads `L`, a class name and `;`. -/
def BinaryName.read : Parser BinaryName
  | 'L' :: rest =>
    match h : rest.dropWhile (· != ';') with
    | [] => .error (.openObject (String.ofList rest))
    | _ :: after =>
      match BinaryName.ofString (String.ofList (rest.takeWhile (· != ';'))) with
      | .error fault => .error (.badClassName fault)
      | .ok name => .ok ⟨name, after, by
          have := length_dropWhile_le (· != ';') rest
          simp only [h, List.length_cons] at this ⊢
          omega⟩
  | _ => .error .missingObjectMark

def RefType.read : Parser (RefType BinaryName)
  | [] => .error .missingReferenceType
  | c :: rest =>
    if c = 'L' then
      (BinaryName.read (c :: rest)).map (Read.map object)
    else if c = '[' then
      let extraDims := (rest.takeWhile (· == '[')).length
      let element := rest.dropWhile (· == '[')
      have shorter : element.length ≤ (c :: rest).length :=
        Nat.le_succ_of_le (length_dropWhile_le (· == '[') rest)
      if element.head? = some 'L' then
        (BinaryName.read element).map fun read => (read.map (objectArray extraDims)).within shorter
      else
        (BaseType.read element).map fun read => (read.map (baseArray extraDims)).within shorter
    else
      .error (.badReferenceType c)

def FieldType.read : Parser (FieldType BinaryName)
  | [] => .error .missingFieldType
  | c :: rest =>
    if c = 'L' ∨ c = '[' then
      (RefType.read (c :: rest)).map (Read.map ref)
    else
      (BaseType.read (c :: rest)).map (Read.map base)

namespace MethodDescriptor

/-- Reads field types up to the closing parenthesis, at the end part `text` of `whole`. The types read so
far are in `seen`, newest first. -/
def readParameters {whole : List Char} (text : List Char) (part : text.length ≤ whole.length)
    (seen : List (FieldType BinaryName)) : Except SyntaxFault (Read (List (FieldType BinaryName)) whole) :=
  match text with
  | [] => .error .openParameters
  | ')' :: rest => .ok ⟨seen.reverse, rest, part⟩
  | c :: rest =>
    match FieldType.read (c :: rest) with
    | .error fault => .error fault
    | .ok ⟨type, after, shorter⟩ =>
      readParameters after (Nat.le_of_lt (Nat.lt_of_lt_of_le shorter part)) (type :: seen)
termination_by text.length
decreasing_by exact shorter

/-- Reads the result, which is absent for `V`. -/
def readResult : Parser (Option (FieldType BinaryName))
  | 'V' :: rest => .ok ⟨none, rest, length_lt_cons 'V' rest⟩
  | text => (FieldType.read text).map (Read.map some)

def read : Parser (MethodDescriptor BinaryName)
  | '(' :: rest =>
    match readParameters rest (Nat.le_refl _) [] with
    | .error fault => .error fault
    | .ok ⟨parameters, after, shorter⟩ =>
      (readResult after).map fun read =>
        (read.map (⟨parameters, ·⟩)).within (Nat.le_of_lt (Nat.lt_succ_of_lt shorter))
  | _ => .error .missingParameters

end MethodDescriptor

end ClassSandbox
