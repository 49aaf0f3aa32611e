import ClassSandbox.Text.Blank

/-!
# Names of classes and members

A field or method has an *unqualified* name: not empty, and free of the characters that descriptors use
as marks. A class has a *binary* name, such as `java/util/Map`: unqualified names joined by slashes.
`BinaryName` holds a text with the proof that it is one, and `BinaryName.ofString` says what is wrong
with any other text.

A binary name also serves as a namespace. `BinaryName.strip?` takes it off the front of a raw class
name, and `BinaryName.wrap` puts it there.
-/

namespace ClassSandbox

/-- Why a text is not a name. -/
inductive NameFault where
  | illegalCharacter (segment : String)
  | emptySegment
  | emptyName
  deriving DecidableEq, Repr

def NameFault.message : NameFault → String
  | .illegalCharacter segment => s!"Unqualified name '{segment}' contains an illegal character"
  | .emptySegment => "Unqualified name '' is empty"
  | .emptyName => "Binary name '' is empty"

/-- The characters that no unqualified name contains. -/
def isNameMark (c : Char) : Bool := c == '.' || c == ';' || c == '[' || c == '/'

namespace UnqualifiedName

/-- What is wrong with an unqualified name, if anything. -/
def fault? (name : List Char) : Option NameFault :=
  if name.any isNameMark then some (.illegalCharacter (String.ofList name))
  else if name.isEmpty then some .emptySegment
  else none

theorem fault?_eq_none_iff {name : List Char} :
    fault? name = none ↔ name ≠ [] ∧ ∀ c ∈ name, isNameMark c = false := by
  unfold fault?
  by_cases hany : name.any isNameMark
  · simp only [hany, if_true, reduceCtorEq, false_iff]
    rintro ⟨-, hall⟩
    obtain ⟨c, hc, hmark⟩ := List.any_eq_true.1 hany
    simp [hall c hc] at hmark
  · have hall : ∀ c ∈ name, isNameMark c = false := by simpa using hany
    cases name <;> simp_all

end UnqualifiedName

namespace BinaryName

/-- The parts of a class name between its slashes. -/
def segments (name : String) : List (List Char) := name.toList.splitOn '/'

/-- What is wrong with a binary name, if anything: the first faulty segment decides. -/
def fault? (name : String) : Option NameFault :=
  if name = "" then some .emptyName else (segments name).findSome? UnqualifiedName.fault?

/-- Every segment is an unqualified name. -/
def IsValid (name : String) : Prop := fault? name = none

instance (name : String) : Decidable (IsValid name) :=
  match h : fault? name with
  | none => isTrue h
  | some _ => isFalse (by simp [IsValid, h])

theorem isValid_iff {name : String} :
    IsValid name ↔ ∀ segment ∈ segments name, segment ≠ [] ∧ ∀ c ∈ segment, isNameMark c = false := by
  unfold IsValid fault?
  by_cases hname : name = ""
  · subst hname
    simp [segments, List.splitOn_nil]
  · simp [hname, List.findSome?_eq_none_iff, UnqualifiedName.fault?_eq_none_iff]

end BinaryName

/-- The name of a class or interface. -/
structure BinaryName where
  text : String
  valid : BinaryName.IsValid text
  deriving DecidableEq

namespace BinaryName

instance : Repr BinaryName := ⟨fun name _ => name.text⟩

def ofString (name : String) : Except NameFault BinaryName :=
  match h : fault? name with
  | none => .ok ⟨name, h⟩
  | some fault => .error fault

theorem ofString_text (name : BinaryName) : ofString name.text = .ok name := by
  have := name.valid
  unfold IsValid at this
  unfold ofString
  split
  · rfl
  · simp_all

theorem text_of_ofString {name : String} {parsed : BinaryName} (h : ofString name = .ok parsed) :
    parsed.text = name := by
  unfold ofString at h
  split at h
  · cases h; rfl
  · cases h

/-- The package of the class: all before the last slash, absent for a class of the default package. -/
def package? (name : BinaryName) : Option String :=
  (Text.splitLast? '/' name.text.toList).map fun parts => String.ofList parts.1

/-- The last segment of the name. -/
def simpleName (name : BinaryName) : String :=
  match Text.splitLast? '/' name.text.toList with
  | some (_, simple) => String.ofList simple
  | none => name.text

/-- What follows this namespace and a slash in a raw class name. The namespace contains neither itself
nor the name that ends with the slash. -/
def strip? (space : BinaryName) (name : String) : Option String :=
  match space.text.toList.isPrefixOf? name.toList with
  | some ('/' :: c :: rest) => some (String.ofList (c :: rest))
  | _ => none

/-- A raw class name lies strictly inside this namespace. -/
def contains (space : BinaryName) (name : String) : Bool := (space.strip? name).isSome

/-- The raw class name moved into this namespace. -/
def wrap (space : BinaryName) (name : String) : String := space.text ++ "/" ++ name

theorem strip?_eq_some_iff {space : BinaryName} {name inner : String} :
    space.strip? name = some inner ↔ inner ≠ "" ∧ name = space.wrap inner := by
  have prefix_iff : ∀ {front whole rest : List Char},
      front.isPrefixOf? whole = some rest ↔ front ++ rest = whole := by
    intro front
    induction front with
    | nil =>
      intro whole rest
      change some whole = some rest ↔ rest = whole
      rw [Option.some.injEq, eq_comm]
    | cons a front ih =>
      intro whole rest
      cases whole with
      | nil => exact ⟨fun h => (nomatch h), fun h => (nomatch h)⟩
      | cons b whole =>
        change (if a == b then front.isPrefixOf? whole else none) = some rest ↔
          a :: (front ++ rest) = b :: whole
        by_cases hab : a = b <;> simp [hab, ih]
  unfold strip?
  constructor
  · intro h
    split at h
    · next c rest hfront =>
      cases h
      rw [prefix_iff] at hfront
      refine ⟨by simp, ?_⟩
      rw [← String.toList_inj, wrap]
      simp [← hfront]
    · cases h
  · rintro ⟨hne, rfl⟩
    have hrest : inner.toList ≠ [] := by simpa using hne
    obtain ⟨c, rest, hcons⟩ := List.exists_cons_of_ne_nil hrest
    have : space.text.toList.isPrefixOf? (space.wrap inner).toList = some ('/' :: c :: rest) := by
      rw [prefix_iff, wrap]
      simp [hcons]
    have htext : String.ofList (c :: rest) = inner := by rw [← hcons, String.ofList_toList]
    simp only [this, htext]

end BinaryName

end ClassSandbox
