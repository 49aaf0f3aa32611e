import Mathlib.Data.Set.List
import ClassSandbox.Proofs.Descriptor.RoundTrip
import ClassSandbox.Proofs.Outcome

/-!
# Descriptors are the written trees

A tree over texts may have anything in the places of its classes. The parsers give exactly those trees in which
the names are valid, and they read exactly what is written out from them, whatever comes after it
(`ReadsWritten`, `descriptors_readWritten`). So neighbouring types in a descriptor never run together.
-/

namespace ClassSandbox

/-! ## Trees over texts -/

namespace RefType

def classes {C : Type} (type : RefType C) : List C := type.class?.toList

/-- The tree without the proofs that its names are valid. -/
def texts (type : RefType BinaryName) : RefType String := type.mapClass (m := Id) BinaryName.text

theorem render_texts (type : RefType BinaryName) : type.texts.render = type.render := by
  cases type <;> rfl

theorem exists_texts_iff {tree : RefType String} :
    (∃ type : RefType BinaryName, type.texts = tree) ↔ ∀ name ∈ tree.classes, BinaryName.IsValid name := by
  constructor
  · rintro ⟨type, rfl⟩ name hmem
    cases type with
    | object class' | objectArray _ class' =>
      obtain rfl : name = class'.text := List.mem_singleton.1 hmem
      exact class'.valid
    | baseArray => cases hmem
  · intro hvalid
    cases tree with
    | object name => exact ⟨object ⟨name, hvalid name (List.mem_singleton_self _)⟩, rfl⟩
    | objectArray extraDims name =>
      exact ⟨objectArray extraDims ⟨name, hvalid name (List.mem_singleton_self _)⟩, rfl⟩
    | baseArray extraDims element => exact ⟨baseArray extraDims element, rfl⟩

end RefType

namespace FieldType

def classes {C : Type} (type : FieldType C) : List C := type.class?.toList

/-- The tree without the proofs that its names are valid. -/
def texts (type : FieldType BinaryName) : FieldType String := type.mapClass (m := Id) BinaryName.text

theorem render_texts (type : FieldType BinaryName) : type.texts.render = type.render := by
  cases type with
  | base => rfl
  | ref type => exact type.render_texts

theorem exists_texts_iff {tree : FieldType String} :
    (∃ type : FieldType BinaryName, type.texts = tree) ↔ ∀ name ∈ tree.classes, BinaryName.IsValid name := by
  cases tree with
  | base type => exact ⟨fun _ _ hmem => (nomatch hmem), fun _ => ⟨base type, rfl⟩⟩
  | ref tree =>
    change _ ↔ ∀ name ∈ tree.classes, BinaryName.IsValid name
    rw [← RefType.exists_texts_iff]
    constructor
    · rintro ⟨type, htexts⟩
      cases type with
      | base => cases htexts
      | ref type => exact ⟨type, FieldType.ref.inj htexts⟩
    · rintro ⟨type, rfl⟩
      exact ⟨ref type, rfl⟩

end FieldType

namespace MethodDescriptor

/-- The classes that the descriptor mentions, in order. -/
def classes {C : Type} (descriptor : MethodDescriptor C) : List C :=
  (descriptor.parameters ++ descriptor.result.toList).flatMap FieldType.classes

/-- The tree without the proofs that its names are valid. -/
def texts (descriptor : MethodDescriptor BinaryName) : MethodDescriptor String :=
  ⟨descriptor.parameters.map FieldType.texts, descriptor.result.map FieldType.texts⟩

theorem render_texts (descriptor : MethodDescriptor BinaryName) : descriptor.texts.render = descriptor.render := by
  obtain ⟨parameters, result⟩ := descriptor
  cases result <;> simp [texts, render, List.flatMap_map, FieldType.render_texts]

theorem forall_mem_classes_iff {C : Type} {descriptor : MethodDescriptor C} {property : C → Prop} :
    (∀ name ∈ descriptor.classes, property name) ↔
      (∀ type ∈ descriptor.parameters, ∀ name ∈ type.classes, property name) ∧
        ∀ type ∈ descriptor.result.toList, ∀ name ∈ type.classes, property name := by
  rw [classes, List.forall_mem_flatMap, List.forall_mem_append]

theorem exists_texts_iff {tree : MethodDescriptor String} :
    (∃ descriptor : MethodDescriptor BinaryName, descriptor.texts = tree) ↔
      ∀ name ∈ tree.classes, BinaryName.IsValid name := by
  simp only [forall_mem_classes_iff, ← FieldType.exists_texts_iff]
  obtain ⟨parameters, result⟩ := tree
  constructor
  · rintro ⟨⟨types, type?⟩, h⟩
    cases h
    cases type? <;> simp
  · rintro ⟨hparameters, hresult⟩
    obtain ⟨types, rfl⟩ : parameters ∈ Set.range (List.map FieldType.texts) := by
      rw [Set.range_list_map]
      exact hparameters
    cases result with
    | none => exact ⟨⟨types, none⟩, rfl⟩
    | some type =>
      obtain ⟨type, rfl⟩ := hresult _ (List.mem_singleton_self _)
      exact ⟨⟨types, some type⟩, rfl⟩

end MethodDescriptor

/-! ## Reading what is written -/

/-- A parser gives the trees whose names are valid, for the texts that are written out from them and, with what is
left, for those that begin in this way. -/
structure ReadsWritten {F : Type → Type} (parser : Parser (F BinaryName)) (texts : F BinaryName → F String)
    (classes : F String → List String) (render : F String → List Char) : Prop where
  whole (text : String) (tree : F String) :
    (parseAll parser text).map texts = .ok tree ↔
      String.ofList (render tree) = text ∧ ∀ name ∈ classes tree, BinaryName.IsValid name
  front (text rest : String) (tree : F String) :
    (parseFront parser text).map (Prod.map texts id) = .ok (tree, rest) ↔
      String.ofList (render tree) ++ rest = text ∧ ∀ name ∈ classes tree, BinaryName.IsValid name

theorem ReadsWritten.of_takes_iff {F : Type → Type} {parser : Parser (F BinaryName)}
    {texts : F BinaryName → F String} {classes : F String → List String} {render : F String → List Char}
    (htakes : ∀ text value rest, Takes (parser text) value rest ↔ text = render (texts value) ++ rest)
    (htexts : ∀ tree, (∃ value, texts value = tree) ↔ ∀ name ∈ classes tree, BinaryName.IsValid name) :
    ReadsWritten parser texts classes render := by
  constructor
  · intro text tree
    rw [except_map_eq_ok_iff, ← htexts, ← String.toList_inj, String.toList_ofList]
    constructor
    · rintro ⟨value, hparse, rfl⟩
      rw [parseAll_eq_ok_iff, htakes, List.append_nil] at hparse
      exact ⟨hparse.symm, value, rfl⟩
    · rintro ⟨htext, value, rfl⟩
      refine ⟨value, ?_, rfl⟩
      rw [parseAll_eq_ok_iff, htakes, List.append_nil, htext]
  · intro text rest tree
    rw [except_map_eq_ok_iff, ← htexts, ← String.toList_inj, String.toList_append, String.toList_ofList]
    constructor
    · rintro ⟨⟨value, after⟩, hparse, h⟩
      cases h
      rw [parseFront_eq_ok_iff, htakes] at hparse
      exact ⟨hparse.symm, value, rfl⟩
    · rintro ⟨htext, value, rfl⟩
      refine ⟨(value, rest), ?_, rfl⟩
      rw [parseFront_eq_ok_iff, htakes, htext]

/-- Reading and writing are inverse to each other for all three types of descriptors. -/
theorem descriptors_readWritten :
    ReadsWritten RefType.read RefType.texts RefType.classes RefType.render ∧
      ReadsWritten FieldType.read FieldType.texts FieldType.classes FieldType.render ∧
      ReadsWritten MethodDescriptor.read MethodDescriptor.texts MethodDescriptor.classes
        MethodDescriptor.render := by
  refine ⟨.of_takes_iff (fun text type rest => ?_) fun _ => RefType.exists_texts_iff,
    .of_takes_iff (fun text type rest => ?_) fun _ => FieldType.exists_texts_iff,
    .of_takes_iff (fun text descriptor rest => ?_) fun _ => MethodDescriptor.exists_texts_iff⟩
  · rw [RefType.takes_read_iff, RefType.render_texts]
  · rw [FieldType.takes_read_iff, FieldType.render_texts]
  · rw [MethodDescriptor.takes_read_iff, MethodDescriptor.render_texts]

end ClassSandbox
