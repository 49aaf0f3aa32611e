import ClassSandbox.Name

/-!
# Descriptors

The erased types of fields and methods: `BaseType`, `RefType`, `FieldType` and `MethodDescriptor`. The
last three are families over the type of class names, so that a checked descriptor
(`FieldType BinaryName`) and one whose classes were replaced by any text (`FieldType String`) have the
same shape. `render` writes a descriptor out, and `mapClass` replaces the classes it mentions.
-/

namespace ClassSandbox

/-- The primitive types. -/
inductive BaseType where
  | byte | char | double | float | int | long | short | boolean
  deriving DecidableEq, Repr

namespace BaseType

def letter : BaseType → Char
  | byte => 'B'
  | char => 'C'
  | double => 'D'
  | float => 'F'
  | int => 'I'
  | long => 'J'
  | short => 'S'
  | boolean => 'Z'

def ofLetter? : Char → Option BaseType
  | 'B' => some byte
  | 'C' => some char
  | 'D' => some double
  | 'F' => some float
  | 'I' => some int
  | 'J' => some long
  | 'S' => some short
  | 'Z' => some boolean
  | _ => none

@[simp]
theorem ofLetter?_letter (type : BaseType) : ofLetter? type.letter = some type := by
  cases type <;> rfl

theorem letter_of_ofLetter? {c : Char} {type : BaseType} (h : ofLetter? c = some type) :
    type.letter = c := by
  unfold ofLetter? at h
  split at h <;> cases h <;> rfl

end BaseType

/-- The class names that a type may mention, each with its text. -/
class ClassText (C : Type) where
  text : C → String

instance : ClassText String := ⟨id⟩
instance : ClassText BinaryName := ⟨BinaryName.text⟩

/-- A class as descriptors write it. -/
def renderClass {C : Type} [ClassText C] (name : C) : List Char :=
  'L' :: (ClassText.text name).toList ++ [';']

/-- A class or an array. An array of `extraDims` more dimensions than one holds classes or base types. -/
inductive RefType (C : Type) where
  | object (name : C)
  | objectArray (extraDims : Nat) (element : C)
  | baseArray (extraDims : Nat) (element : BaseType)
  deriving DecidableEq, Repr

/-- The type of a field, of a parameter or of a result. -/
inductive FieldType (C : Type) where
  | base (type : BaseType)
  | ref (type : RefType C)
  deriving DecidableEq, Repr

/-- The parameters of a method and its result, which is absent for `void`. -/
structure MethodDescriptor (C : Type) where
  parameters : List (FieldType C)
  result : Option (FieldType C)
  deriving DecidableEq, Repr

namespace RefType

variable {C D : Type}

def render [ClassText C] : RefType C → List Char
  | object name => renderClass name
  | objectArray extraDims element => List.replicate (extraDims + 1) '[' ++ renderClass element
  | baseArray extraDims element => List.replicate (extraDims + 1) '[' ++ [element.letter]

/-- The class that the type mentions. -/
def class? : RefType C → Option C
  | object name => some name
  | objectArray _ element => some element
  | baseArray _ _ => none

/-- The class replaced, with the dimensions around it kept. -/
def mapClass {m : Type → Type} [Monad m] (f : C → m D) : RefType C → m (RefType D)
  | object name => do return object (← f name)
  | objectArray extraDims element => do return objectArray extraDims (← f element)
  | baseArray extraDims element => return baseArray extraDims element

end RefType

namespace FieldType

variable {C D : Type}

def render [ClassText C] : FieldType C → List Char
  | base type => [type.letter]
  | ref type => type.render

def class? : FieldType C → Option C
  | base _ => none
  | ref type => type.class?

def mapClass {m : Type → Type} [Monad m] (f : C → m D) : FieldType C → m (FieldType D)
  | base type => return base type
  | ref type => do return ref (← type.mapClass f)

/-- The array type whose elements have this type. -/
def array : FieldType C → FieldType C
  | base type => ref (.baseArray 0 type)
  | ref (.object name) => ref (.objectArray 0 name)
  | ref (.objectArray extraDims element) => ref (.objectArray (extraDims + 1) element)
  | ref (.baseArray extraDims element) => ref (.baseArray (extraDims + 1) element)

theorem render_array [ClassText C] (type : FieldType C) : type.array.render = '[' :: type.render := by
  rcases type with type | (name | ⟨extraDims, element⟩ | ⟨extraDims, element⟩) <;>
    simp [array, render, RefType.render, List.replicate_succ]

end FieldType

namespace MethodDescriptor

variable {C D : Type}

def render [ClassText C] (descriptor : MethodDescriptor C) : List Char :=
  '(' :: descriptor.parameters.flatMap FieldType.render ++ ')' ::
    match descriptor.result with
    | none => ['V']
    | some type => type.render

/-- Every class replaced in order, first those of the parameters and then that of the result. -/
def mapClass {m : Type → Type} [Monad m] (f : C → m D) (descriptor : MethodDescriptor C) :
    m (MethodDescriptor D) := do
  let parameters ← descriptor.parameters.mapM fun type => type.mapClass f
  let result ← descriptor.result.mapM fun type => type.mapClass f
  return ⟨parameters, result⟩

end MethodDescriptor

end ClassSandbox
