import Mathlib.Data.List.Basic
import ClassSandbox.Signature.ClassNames

/-!
# The walk over the class names of a signature

`classNames` lists the classes that a signature mentions, in the order of its text: first the full name of a class, then
what its arguments mention, then each projection in the same way, under its full name. Type variables and type
parameters are not among them.

A walk `Asks` for names if, in every lawful monad, it calls the map for these names one after another and for nothing
else, and makes its result of the answers. There is one rule for each way to build a walk (`Asks.bind`,
`asks_listMapM`), and with them `mapNames` asks for `classNames` on all kinds of signatures.
-/

namespace ClassSandbox

theorem nestedName?_eq_some_iff {outer nested inner : String} :
    nestedName? outer nested = some inner ↔ nested = nestedName outer inner := by
  unfold nestedName?
  constructor
  · intro h
    split at h
    · rename_i hfront
      cases h
      rw [List.isPrefixOf?_eq_some_iff_append_eq] at hfront
      rw [← String.toList_inj, ← hfront]
      simp [nestedName]
    · cases h
  · rintro rfl
    have hfront : outer.toList.isPrefixOf? (nestedName outer inner).toList = some ('$' :: inner.toList) := by
      rw [List.isPrefixOf?_eq_some_iff_append_eq]
      simp [nestedName]
    simp only [hfront, String.ofList_toList]

/-! ## The names of a signature -/

mutual

def TypeSignature.classNames : TypeSignature → List String
  | .base _ => []
  | .reference type => type.classNames

def ReferenceSignature.classNames : ReferenceSignature → List String
  | .object type => type.classNames
  | .variable _ => []
  | .array element => element.classNames

def ClassTypeSignature.classNames : ClassTypeSignature → List String
  | .mk (.mk name arguments) projections =>
    name :: (classNamesOfArguments arguments ++ classNamesOfProjections name projections)

/-- The names of projections from the class `outer`, each with the names in its arguments. -/
def classNamesOfProjections (outer : String) : List SimpleClassSignature → List String
  | [] => []
  | .mk name arguments :: rest =>
    nestedName outer name :: (classNamesOfArguments arguments ++ classNamesOfProjections (nestedName outer name) rest)

def classNamesOfArguments : List TypeArgument → List String
  | [] => []
  | argument :: rest => argument.classNames ++ classNamesOfArguments rest

def TypeArgument.classNames : TypeArgument → List String
  | .wildcard => []
  | .type _ type => type.classNames

end

def TypeParameter.classNames (parameter : TypeParameter) : List String :=
  parameter.classBound.elim [] ReferenceSignature.classNames ++
    parameter.interfaceBounds.flatMap ReferenceSignature.classNames

def ClassSignature.classNames (signature : ClassSignature) : List String :=
  signature.typeParameters.flatMap TypeParameter.classNames ++
    (signature.superclass.classNames ++ signature.superinterfaces.flatMap ClassTypeSignature.classNames)

def MethodSignature.classNames (signature : MethodSignature) : List String :=
  signature.typeParameters.flatMap TypeParameter.classNames ++
    (signature.parameters.flatMap TypeSignature.classNames ++
      (signature.result.elim [] TypeSignature.classNames ++
        signature.throws.flatMap ReferenceSignature.classNames))

def GenericSignature.classNames : GenericSignature → List String
  | .ofClass signature => signature.classNames
  | .ofMethod signature => signature.classNames

/-! ## Asking for names -/

/-- A walk that asks for new names in any monad, and gives some result. -/
abbrev Walk (α : Type) : Type 1 := ∀ (m : Type → Type) [Monad m], (String → m String) → m α

/-- The walk asks for these names one after another and for nothing else, and makes its result of the answers. -/
def Asks {α : Type} (names : List String) (walk : Walk α) : Prop :=
  ∃ build : List String → α, ∀ (m : Type → Type) [Monad m] [LawfulMonad m] (f : String → m String),
    walk m f = build <$> names.mapM f

section Rules

variable {α β : Type} {names names' : List String} {walk walk' : Walk α}

/-- There is an answer for each name. -/
theorem mapM_bind_congr {m : Type → Type} [Monad m] [LawfulMonad m] {f : String → m String}
    {next next' : List String → m β}
    (h : ∀ answers, answers.length = names.length → next answers = next' answers) :
    names.mapM f >>= next = names.mapM f >>= next' := by
  induction names generalizing next next' with
  | nil => simpa using h [] rfl
  | cons name names ih =>
    simp only [List.mapM_cons, bind_assoc, pure_bind]
    refine bind_congr fun answer => ih fun answers hlength => h _ ?_
    rw [List.length_cons, List.length_cons, hlength]

theorem asks_pure (a : α) : Asks [] fun _ _ _ => pure a :=
  ⟨fun _ => a, fun m _ _ f => by simp⟩

theorem asks_name (name : String) : Asks [name] fun _ _ f => f name :=
  ⟨fun answers => answers.headD "", fun m _ _ f => by simp⟩

theorem Asks.map (h : Asks names walk) (g : α → β) : Asks names fun m _ f => do return g (← walk m f) := by
  obtain ⟨build, hbuild⟩ := h
  exact ⟨fun answers => g (build answers), fun m _ _ f => by simp [hbuild]⟩

theorem Asks.bind {next : α → Walk β} (h : Asks names walk) (hnext : ∀ a, Asks names' (next a)) :
    Asks (names ++ names') fun m _ f => (do let a ← walk m f; next a m f) := by
  obtain ⟨build, hbuild⟩ := h
  obtain ⟨build', hbuild'⟩ := Classical.axiomOfChoice hnext
  refine ⟨fun answers => build' (build (answers.take names.length)) (answers.drop names.length), fun m _ _ f => ?_⟩
  calc (do let a ← walk m f; next a m f)
    _ = (do let answers ← names.mapM f; build' (build answers) <$> names'.mapM f) := by
        simp only [hbuild, hbuild', bind_map_left]
    _ = (do
          let answers ← names.mapM f
          (fun answers' => build' (build ((answers ++ answers').take names.length))
            ((answers ++ answers').drop names.length)) <$> names'.mapM f) :=
        mapM_bind_congr fun answers hlength => by simp only [← hlength, List.take_left, List.drop_left]
    _ = _ := by
        rw [List.mapM_append]
        simp only [← bind_pure_comp, bind_assoc, pure_bind]

/-- Only walks in lawful monads count. -/
theorem Asks.congr (h : Asks names walk)
    (hsame : ∀ (m : Type → Type) [Monad m] [LawfulMonad m] (f : String → m String), walk' m f = walk m f) :
    Asks names walk' := by
  obtain ⟨build, hbuild⟩ := h
  exact ⟨build, fun m _ _ f => by rw [hsame, hbuild]⟩

theorem asks_listMapM {walk : α → Walk β} {names : α → List String} (h : ∀ a, Asks (names a) (walk a))
    (items : List α) : Asks (items.flatMap names) fun m _ f => items.mapM fun a => walk a m f := by
  induction items with
  | nil => exact (asks_pure []).congr fun m _ _ f => List.mapM_nil
  | cons a items ih =>
    exact ((h a).bind fun b => ih.map (b :: ·)).congr fun m _ _ f => List.mapM_cons

theorem asks_optionMapM {walk : α → Walk β} {names : α → List String} (h : ∀ a, Asks (names a) (walk a))
    (item : Option α) : Asks (item.elim [] names) fun m _ f => item.mapM fun a => walk a m f := by
  cases item with
  | none => exact asks_pure none
  | some a => exact ((h a).map some).congr fun m _ _ f => by simp

end Rules

/-! ## Signatures ask for their class names -/

mutual

theorem asks_typeSignature : (type : TypeSignature) → Asks type.classNames fun _ _ f => type.mapNames f
  | .base _ => asks_pure _
  | .reference type => (asks_referenceSignature type).map _

theorem asks_referenceSignature :
    (type : ReferenceSignature) → Asks type.classNames fun _ _ f => type.mapNames f
  | .object type => (asks_classTypeSignature type).map _
  | .variable _ => asks_pure _
  | .array element => (asks_typeSignature element).map _

theorem asks_classTypeSignature :
    (type : ClassTypeSignature) → Asks type.classNames fun _ _ f => type.mapNames f
  | .mk (.mk name arguments) projections =>
    (asks_name name).bind fun newName => (asks_arguments arguments).bind fun _ =>
      (asks_projections name newName projections).map _

theorem asks_projections (outer newOuter : String) :
    (projections : List SimpleClassSignature) →
      Asks (classNamesOfProjections outer projections) fun _ _ f => mapProjectionNames f outer newOuter projections
  | [] => asks_pure _
  | .mk name arguments :: rest =>
    (asks_name (nestedName outer name)).bind fun newFull => (asks_arguments arguments).bind fun _ =>
      (asks_projections (nestedName outer name) newFull rest).map _

theorem asks_arguments :
    (arguments : List TypeArgument) →
      Asks (classNamesOfArguments arguments) fun _ _ f => mapArgumentNames f arguments
  | [] => asks_pure _
  | argument :: rest => (asks_typeArgument argument).bind fun _ => (asks_arguments rest).map _

theorem asks_typeArgument : (argument : TypeArgument) → Asks argument.classNames fun _ _ f => argument.mapNames f
  | .wildcard => asks_pure _
  | .type _ type => (asks_referenceSignature type).map _

end

theorem asks_typeParameter (parameter : TypeParameter) :
    Asks parameter.classNames fun _ _ f => parameter.mapNames f :=
  (asks_optionMapM asks_referenceSignature _).bind fun _ => (asks_listMapM asks_referenceSignature _).map _

theorem asks_classSignature (signature : ClassSignature) :
    Asks signature.classNames fun _ _ f => signature.mapNames f :=
  (asks_listMapM asks_typeParameter _).bind fun _ => (asks_classTypeSignature _).bind fun _ =>
    (asks_listMapM asks_classTypeSignature _).map _

theorem asks_methodSignature (signature : MethodSignature) :
    Asks signature.classNames fun _ _ f => signature.mapNames f :=
  (asks_listMapM asks_typeParameter _).bind fun _ => (asks_listMapM asks_typeSignature _).bind fun _ =>
    (asks_optionMapM asks_typeSignature _).bind fun _ => (asks_listMapM asks_referenceSignature _).map _

theorem asks_genericSignature (signature : GenericSignature) :
    Asks signature.classNames fun _ _ f => signature.mapNames f := by
  cases signature with
  | ofClass signature => exact (asks_classSignature signature).map _
  | ofMethod signature => exact (asks_methodSignature signature).map _

end ClassSandbox
