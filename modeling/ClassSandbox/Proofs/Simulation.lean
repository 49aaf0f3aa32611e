import ClassSandbox.Descriptor
import ClassSandbox.Proofs.Outcome
import ClassSandbox.Signature.ClassNames

/-!
# Simulations between monads

A `Simulation` relates the computations of two monads, and does so step by step: returning the same value is
related, and so are sequences of related parts. Two programs of the same shape are then related when their
primitive steps are. The lemmas here say so of lists and options, of descriptors and of generic signatures,
whose class names are replaced by related functions. `Simulation.through` relates actions that depend on a part of
the state alone.
-/

namespace ClassSandbox

/-- A relation between the computations of two monads that returning and sequencing keep. -/
structure Simulation (m n : Type → Type) [Monad m] [Monad n] where
  Rel {α : Type} : m α → n α → Prop
  pure {α : Type} (a : α) : Rel (Pure.pure a) (Pure.pure a)
  bind {α β : Type} {x : m α} {y : n α} {f : α → m β} {g : α → n β} :
    Rel x y → (∀ a, Rel (f a) (g a)) → Rel (x >>= f) (y >>= g)

namespace Simulation

/-- The same value or the same fault and the same view of the state, from states of which the view is the same. -/
def through {ε σ τ : Type} (view : σ → τ) : Simulation (ExceptT ε (StateM σ)) (ExceptT ε (StateM σ)) where
  Rel x y := ∀ s t, view s = view t →
    (outcome x s).1 = (outcome y t).1 ∧ view (outcome x s).2 = view (outcome y t).2
  pure _ := fun _ _ hsame => ⟨rfl, hsame⟩
  bind := by
    intro α β x y f g hxy hfg s t hsame
    have hfirst := hxy s t hsame
    rw [outcome_bind, outcome_bind]
    generalize outcome x s = run at hfirst
    generalize outcome y t = run' at hfirst
    obtain ⟨result, after⟩ := run
    obtain ⟨result', after'⟩ := run'
    obtain ⟨hresult, hafter⟩ := hfirst
    obtain rfl : result = result' := hresult
    cases result with
    | error fault => exact ⟨rfl, hafter⟩
    | ok a => exact hfg a after after' hafter

variable {m n : Type → Type} [Monad m] [Monad n] (S : Simulation m n)

/-! ## Types -/

section Types

variable {C D : Type} {f : C → m D} {g : C → n D}

theorem refType_mapClass (h : ∀ name, S.Rel (f name) (g name)) (type : RefType C) :
    S.Rel (type.mapClass f) (type.mapClass g) := by
  cases type with
  | object name => exact S.bind (h name) fun _ => S.pure _
  | objectArray extraDims element => exact S.bind (h element) fun _ => S.pure _
  | baseArray extraDims element => exact S.pure _

theorem fieldType_mapClass (h : ∀ name, S.Rel (f name) (g name)) (type : FieldType C) :
    S.Rel (type.mapClass f) (type.mapClass g) := by
  cases type with
  | base type => exact S.pure _
  | ref type => exact S.bind (S.refType_mapClass h type) fun _ => S.pure _

end Types

section TypeSignatures

variable {f : String → m String} {g : String → n String}

mutual

theorem typeSignature_mapNames (h : ∀ name, S.Rel (f name) (g name)) :
    (type : TypeSignature) → S.Rel (type.mapNames f) (type.mapNames g)
  | .base _ => S.pure _
  | .reference type => S.bind (referenceSignature_mapNames h type) fun _ => S.pure _

theorem referenceSignature_mapNames (h : ∀ name, S.Rel (f name) (g name)) :
    (type : ReferenceSignature) → S.Rel (type.mapNames f) (type.mapNames g)
  | .object type => S.bind (classTypeSignature_mapNames h type) fun _ => S.pure _
  | .variable _ => S.pure _
  | .array element => S.bind (typeSignature_mapNames h element) fun _ => S.pure _

theorem classTypeSignature_mapNames (h : ∀ name, S.Rel (f name) (g name)) :
    (type : ClassTypeSignature) → S.Rel (type.mapNames f) (type.mapNames g)
  | .mk (.mk name arguments) projections =>
    S.bind (h name) fun newName =>
      S.bind (mapArgumentNames h arguments) fun _ =>
        S.bind (mapProjectionNames h name newName projections) fun _ => S.pure _

theorem mapProjectionNames (h : ∀ name, S.Rel (f name) (g name)) (outer newOuter : String) :
    (projections : List SimpleClassSignature) →
      S.Rel (ClassSandbox.mapProjectionNames f outer newOuter projections)
        (ClassSandbox.mapProjectionNames g outer newOuter projections)
  | [] => S.pure _
  | .mk name arguments :: rest =>
    S.bind (h (nestedName outer name)) fun newFull =>
      S.bind (mapArgumentNames h arguments) fun _ =>
        S.bind (mapProjectionNames h (nestedName outer name) newFull rest) fun _ => S.pure _

theorem mapArgumentNames (h : ∀ name, S.Rel (f name) (g name)) :
    (arguments : List TypeArgument) →
      S.Rel (ClassSandbox.mapArgumentNames f arguments) (ClassSandbox.mapArgumentNames g arguments)
  | [] => S.pure _
  | argument :: rest =>
    S.bind (typeArgument_mapNames h argument) fun _ =>
      S.bind (mapArgumentNames h rest) fun _ => S.pure _

theorem typeArgument_mapNames (h : ∀ name, S.Rel (f name) (g name)) :
    (argument : TypeArgument) → S.Rel (argument.mapNames f) (argument.mapNames g)
  | .wildcard => S.pure _
  | .type _ type => S.bind (referenceSignature_mapNames h type) fun _ => S.pure _

end

end TypeSignatures

/-! ## Lists and options -/

section Collections

variable {α β : Type}

theorem list_forM {f : α → m PUnit} {g : α → n PUnit} (h : ∀ a, S.Rel (f a) (g a)) (values : List α) :
    S.Rel (values.forM f) (values.forM g) := by
  induction values with
  | nil => exact S.pure _
  | cons a values ih => exact S.bind (h a) fun _ => ih

variable [LawfulMonad m] [LawfulMonad n]

theorem list_mapM {f : α → m β} {g : α → n β} (h : ∀ a, S.Rel (f a) (g a)) (values : List α) :
    S.Rel (values.mapM f) (values.mapM g) := by
  induction values with
  | nil => exact S.pure _
  | cons a values ih =>
    rw [List.mapM_cons, List.mapM_cons]
    exact S.bind (h a) fun _ => S.bind ih fun _ => S.pure _

theorem option_mapM {f : α → m β} {g : α → n β} (h : ∀ a, S.Rel (f a) (g a)) (value : Option α) :
    S.Rel (value.mapM f) (value.mapM g) := by
  cases value with
  | none => exact S.pure _
  | some a =>
    change S.Rel (some <$> f a) (some <$> g a)
    rw [← bind_pure_comp, ← bind_pure_comp]
    exact S.bind (h a) fun _ => S.pure _

end Collections

/-! ## Declarations -/

section Declarations

variable [LawfulMonad m] [LawfulMonad n]

theorem methodDescriptor_mapClass {C D : Type} {f : C → m D} {g : C → n D}
    (h : ∀ name, S.Rel (f name) (g name)) (descriptor : MethodDescriptor C) :
    S.Rel (descriptor.mapClass f) (descriptor.mapClass g) :=
  S.bind (S.list_mapM (S.fieldType_mapClass h) _) fun _ =>
    S.bind (S.option_mapM (S.fieldType_mapClass h) _) fun _ => S.pure _

variable {f : String → m String} {g : String → n String}

theorem typeParameter_mapNames (h : ∀ name, S.Rel (f name) (g name)) (parameter : TypeParameter) :
    S.Rel (parameter.mapNames f) (parameter.mapNames g) :=
  S.bind (S.option_mapM (S.referenceSignature_mapNames h) _) fun _ =>
    S.bind (S.list_mapM (S.referenceSignature_mapNames h) _) fun _ => S.pure _

theorem classSignature_mapNames (h : ∀ name, S.Rel (f name) (g name)) (signature : ClassSignature) :
    S.Rel (signature.mapNames f) (signature.mapNames g) :=
  S.bind (S.list_mapM (S.typeParameter_mapNames h) _) fun _ =>
    S.bind (S.classTypeSignature_mapNames h _) fun _ =>
      S.bind (S.list_mapM (S.classTypeSignature_mapNames h) _) fun _ => S.pure _

theorem methodSignature_mapNames (h : ∀ name, S.Rel (f name) (g name)) (signature : MethodSignature) :
    S.Rel (signature.mapNames f) (signature.mapNames g) :=
  S.bind (S.list_mapM (S.typeParameter_mapNames h) _) fun _ =>
    S.bind (S.list_mapM (S.typeSignature_mapNames h) _) fun _ =>
      S.bind (S.option_mapM (S.typeSignature_mapNames h) _) fun _ =>
        S.bind (S.list_mapM (S.referenceSignature_mapNames h) _) fun _ => S.pure _

theorem genericSignature_mapNames (h : ∀ name, S.Rel (f name) (g name)) (signature : GenericSignature) :
    S.Rel (signature.mapNames f) (signature.mapNames g) := by
  cases signature with
  | ofClass signature => exact S.bind (S.classSignature_mapNames h signature) fun _ => S.pure _
  | ofMethod signature => exact S.bind (S.methodSignature_mapNames h signature) fun _ => S.pure _

end Declarations

end Simulation

end ClassSandbox
