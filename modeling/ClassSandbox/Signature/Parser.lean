import ClassSandbox.Descriptor.Parser
import ClassSandbox.Signature

/-!
# Reading generic signatures

`TypeSignature.read` and `ReferenceSignature.read` read the types, by recursion on the length of the text.
`ClassSignature.read`, `MethodSignature.read` and `GenericSignature.read` read what a `Signature` attribute
holds. A class and a method signature both begin with their type parameters, and only then does an opening
parenthesis tell them apart.

The loops (`readProjections`, `readArguments` and those for bounds, parameters and thrown types) carry what
they have read in `seen`, newest first.
-/

namespace ClassSandbox

/-- The characters that end an identifier. -/
def isSignatureMark (c : Char) : Bool :=
  c == '.' || c == ';' || c == '[' || c == '<' || c == '>' || c == ':'

/-- Reads a nonempty run of characters that are not marks. The mark after it stays, and has to be one of
`ends`. -/
def readIdentifier (ends : List Char) (text : List Char) : Except SyntaxFault (Read String text) :=
  let name := text.takeWhile fun c => !isSignatureMark c
  match h : text.dropWhile fun c => !isSignatureMark c with
  | [] => .error (.openIdentifier (String.ofList name))
  | c :: rest =>
    if c ∉ ends then .error (.badIdentifier c (String.ofList name))
    else if empty : name = [] then .error .emptyIdentifier
    else .ok ⟨String.ofList name, c :: rest, length_lt_of_dropWhile h empty⟩

/-- Reads one given character. -/
def readMark (wanted : Char) : (text : List Char) → Except SyntaxFault (Read Unit text)
  | [] => .error (.missingMark wanted)
  | found :: rest =>
    if found = wanted then .ok ⟨(), rest, length_lt_cons found rest⟩ else .error (.badMark wanted found)

/-- The text starts like a class, a type variable or an array. -/
def startsReference : List Char → Bool
  | c :: _ => c == 'L' || c == 'T' || c == '['
  | [] => false

mutual

def TypeSignature.read (text : List Char) : Except SyntaxFault (Read TypeSignature text) :=
  if startsReference text then
    (ReferenceSignature.read text).map (Read.map .reference)
  else
    (BaseType.read text).map (Read.map .base)
termination_by (text.length, 2)

def ReferenceSignature.read (text : List Char) : Except SyntaxFault (Read ReferenceSignature text) :=
  match text with
  | [] => .error .missingReferenceSignature
  | 'L' :: rest => (ClassTypeSignature.read ('L' :: rest)).map (Read.map .object)
  | 'T' :: rest =>
    match readIdentifier [';'] rest with
    | .error fault => .error fault
    | .ok ⟨name, after, shorter⟩ =>
      (readMark ';' after).map fun read =>
        (read.map fun _ => .variable name).within (Nat.le_of_lt (Nat.lt_succ_of_lt shorter))
  | '[' :: rest =>
    (TypeSignature.read rest).map fun read => (read.map .array).within (Nat.le_succ _)
  | found :: _ => .error (.badReferenceSignature found)
termination_by (text.length, 1)

def ClassTypeSignature.read (text : List Char) : Except SyntaxFault (Read ClassTypeSignature text) :=
  match readMark 'L' text with
  | .error fault => .error fault
  | .ok ⟨_, named, shorter⟩ =>
    match SimpleClassSignature.read named with
    | .error fault => .error fault
    | .ok ⟨outer, after, shorter'⟩ =>
      match readProjections after (Nat.lt_trans shorter' shorter) [] with
      | .error fault => .error fault
      | .ok ⟨projections, last, shorter''⟩ =>
        (readMark ';' last).map fun read =>
          (read.map fun _ => .mk outer projections).within (Nat.le_of_lt shorter'')
termination_by (text.length, 0)

def readProjections {whole : List Char} (text : List Char) (part : text.length < whole.length)
    (seen : List SimpleClassSignature) : Except SyntaxFault (Read (List SimpleClassSignature) whole) :=
  match text with
  | [] => .ok ⟨seen.reverse, [], part⟩
  | '.' :: rest =>
    match SimpleClassSignature.read rest with
    | .error fault => .error fault
    | .ok ⟨projection, after, shorter⟩ =>
      readProjections after (Nat.lt_trans (Nat.lt_succ_of_lt shorter) part) (projection :: seen)
  | c :: rest => .ok ⟨seen.reverse, c :: rest, part⟩
termination_by (text.length, 0)

def SimpleClassSignature.read (text : List Char) : Except SyntaxFault (Read SimpleClassSignature text) :=
  match readIdentifier ['<', '.', ';'] text with
  | .error fault => .error fault
  | .ok ⟨name, after, shorter⟩ =>
    if (BinaryName.segments name).any List.isEmpty then .error (.emptyClassSegment name)
    else
      match after with
      | [] => .ok ⟨.mk name [], [], shorter⟩
      | '<' :: rest =>
        have part : rest.length < text.length := Nat.lt_of_succ_lt shorter
        match readArguments rest part [] with
        | .error fault => .error fault
        | .ok ⟨[], _, _⟩ => .error (.noTypeArguments name)
        | .ok ⟨arguments, last, shorter'⟩ => .ok ⟨.mk name arguments, last, shorter'⟩
      | c :: rest => .ok ⟨.mk name [], c :: rest, shorter⟩
termination_by (text.length, 0)

/-- Reads type arguments up to the closing bracket. -/
def readArguments {whole : List Char} (text : List Char) (part : text.length < whole.length)
    (seen : List TypeArgument) : Except SyntaxFault (Read (List TypeArgument) whole) :=
  if text.head? = some '>' then
    .ok ⟨seen.reverse, text.tail, Nat.lt_of_le_of_lt (length_tail_le text) part⟩
  else
    match TypeArgument.read text with
    | .error fault => .error fault
    | .ok ⟨argument, after, shorter⟩ => readArguments after (Nat.lt_trans shorter part) (argument :: seen)
termination_by (text.length, 3)

def TypeArgument.read (text : List Char) : Except SyntaxFault (Read TypeArgument text) :=
  match text with
  | '*' :: rest => .ok ⟨.wildcard, rest, Nat.lt_succ_self _⟩
  | '+' :: rest =>
    (ReferenceSignature.read rest).map fun read => (read.map (.type (some .upper))).within (Nat.le_succ _)
  | '-' :: rest =>
    (ReferenceSignature.read rest).map fun read => (read.map (.type (some .lower))).within (Nat.le_succ _)
  | text => (ReferenceSignature.read text).map (Read.map (.type none))
termination_by (text.length, 2)

end

/-! ## Declarations -/

/-- Reads interface bounds, each after a colon. -/
def readBounds {whole : List Char} (text : List Char) (part : text.length < whole.length)
    (seen : List ReferenceSignature) : Except SyntaxFault (Read (List ReferenceSignature) whole) :=
  match text with
  | [] => .ok ⟨seen.reverse, [], part⟩
  | ':' :: rest =>
    match ReferenceSignature.read rest with
    | .error fault => .error fault
    | .ok ⟨bound, after, shorter⟩ =>
      readBounds after (Nat.lt_trans (Nat.lt_succ_of_lt shorter) part) (bound :: seen)
  | c :: rest => .ok ⟨seen.reverse, c :: rest, part⟩
termination_by text.length

def TypeParameter.read : Parser TypeParameter := fun text =>
  match readIdentifier [':'] text with
  | .error fault => .error fault
  | .ok ⟨name, after, shorter⟩ =>
    match readMark ':' after with
    | .error fault => .error fault
    | .ok ⟨_, bounds, shorter'⟩ =>
      have part : bounds.length < text.length := Nat.lt_trans shorter' shorter
      if startsReference bounds then
        match ReferenceSignature.read bounds with
        | .error fault => .error fault
        | .ok ⟨classBound, others, shorter''⟩ =>
          (readBounds others (Nat.lt_trans shorter'' part) []).map (Read.map (⟨name, some classBound, ·⟩))
      else
        (readBounds bounds part []).map (Read.map (⟨name, none, ·⟩))

/-- Reads type parameters up to the closing bracket. -/
def readTypeParameterList {whole : List Char} (text : List Char) (part : text.length < whole.length)
    (seen : List TypeParameter) : Except SyntaxFault (Read (List TypeParameter) whole) :=
  if text.head? = some '>' then
    .ok ⟨seen.reverse, text.tail, Nat.lt_of_le_of_lt (length_tail_le text) part⟩
  else
    match TypeParameter.read text with
    | .error fault => .error fault
    | .ok ⟨parameter, after, shorter⟩ =>
      readTypeParameterList after (Nat.lt_trans shorter part) (parameter :: seen)
termination_by text.length

/-- Reads the type parameters at the front of a declaration, if there are any, and then the declaration
itself. -/
def withTypeParameters {α : Type} (body : List TypeParameter → Parser α) : Parser α
  | '<' :: rest =>
    match readTypeParameterList rest (Nat.lt_succ_self _) [] with
    | .error fault => .error fault
    | .ok ⟨[], _, _⟩ => .error .noTypeParameters
    | .ok ⟨parameters, after, shorter⟩ =>
      (body parameters after).map fun read => read.within (Nat.le_of_lt shorter)
  | text => body [] text

/-- Reads class types up to the end of the text. -/
def readSuperinterfaces {whole : List Char} (text : List Char) (part : text.length < whole.length)
    (seen : List ClassTypeSignature) : Except SyntaxFault (Read (List ClassTypeSignature) whole) :=
  match text with
  | [] => .ok ⟨seen.reverse, [], part⟩
  | c :: rest =>
    match ClassTypeSignature.read (c :: rest) with
    | .error fault => .error fault
    | .ok ⟨type, after, shorter⟩ => readSuperinterfaces after (Nat.lt_trans shorter part) (type :: seen)
termination_by text.length
decreasing_by exact shorter

namespace ClassSignature

def readBody (typeParameters : List TypeParameter) : Parser ClassSignature := fun text =>
  match ClassTypeSignature.read text with
  | .error fault => .error fault
  | .ok ⟨superclass, after, shorter⟩ =>
    (readSuperinterfaces after shorter []).map (Read.map (⟨typeParameters, superclass, ·⟩))

def read : Parser ClassSignature := withTypeParameters readBody

end ClassSignature

namespace MethodSignature

/-- Reads types up to the closing parenthesis. -/
def readParameters {whole : List Char} (text : List Char) (part : text.length < whole.length)
    (seen : List TypeSignature) : Except SyntaxFault (Read (List TypeSignature) whole) :=
  if text.head? = some ')' then
    .ok ⟨seen.reverse, text.tail, Nat.lt_of_le_of_lt (length_tail_le text) part⟩
  else
    match TypeSignature.read text with
    | .error fault => .error fault
    | .ok ⟨type, after, shorter⟩ => readParameters after (Nat.lt_trans shorter part) (type :: seen)
termination_by text.length

/-- Reads the result, which is absent for `V`. -/
def readResult : Parser (Option TypeSignature)
  | 'V' :: rest => .ok ⟨none, rest, Nat.lt_succ_self _⟩
  | text => (TypeSignature.read text).map (Read.map some)

/-- Reads thrown types, each after a caret. An array cannot be thrown. -/
def readThrows {whole : List Char} (text : List Char) (part : text.length < whole.length)
    (seen : List ReferenceSignature) : Except SyntaxFault (Read (List ReferenceSignature) whole) :=
  match text with
  | [] => .ok ⟨seen.reverse, [], part⟩
  | '^' :: rest =>
    match ReferenceSignature.read rest with
    | .error fault => .error fault
    | .ok ⟨.array _, _, _⟩ => .error .thrownArray
    | .ok ⟨thrown, after, shorter⟩ =>
      readThrows after (Nat.lt_trans (Nat.lt_succ_of_lt shorter) part) (thrown :: seen)
  | c :: rest => .ok ⟨seen.reverse, c :: rest, part⟩
termination_by text.length

def readBody (typeParameters : List TypeParameter) : Parser MethodSignature := fun text =>
  match readMark '(' text with
  | .error fault => .error fault
  | .ok ⟨_, inside, shorter⟩ =>
    match readParameters inside shorter [] with
    | .error fault => .error fault
    | .ok ⟨parameters, after, shorter'⟩ =>
      match readResult after with
      | .error fault => .error fault
      | .ok ⟨result, last, shorter''⟩ =>
        (readThrows last (Nat.lt_trans shorter'' shorter') []).map
          (Read.map (⟨typeParameters, parameters, result, ·⟩))

def read : Parser MethodSignature := withTypeParameters readBody

end MethodSignature

namespace GenericSignature

def readBody (typeParameters : List TypeParameter) : Parser GenericSignature := fun text =>
  if text.head? = some '(' then
    (MethodSignature.readBody typeParameters text).map (Read.map ofMethod)
  else
    (ClassSignature.readBody typeParameters text).map (Read.map ofClass)

def read : Parser GenericSignature := withTypeParameters readBody

end GenericSignature

end ClassSandbox
