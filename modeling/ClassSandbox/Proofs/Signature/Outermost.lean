import ClassSandbox.Proofs.Signature.Declarations

/-!
# Outermost class names

The outermost class name of a class type is the one that is not relative to another class. `mapOutermost` replaces
these names alone: the names of projections, type variables and type parameters, the bounds, wildcards, arrays and
base types, and the order of all of them stay. A signature stays well-formed if its class names are replaced by names
that may stand for classes (`GenericSignature.WellFormed.mapOutermost`).
-/

namespace ClassSandbox

/-! ## Types -/

mutual

def TypeSignature.outermostNames : TypeSignature → List String
  | .base _ => []
  | .reference type => type.outermostNames

def ReferenceSignature.outermostNames : ReferenceSignature → List String
  | .object type => type.outermostNames
  | .variable _ => []
  | .array element => element.outermostNames

def ClassTypeSignature.outermostNames : ClassTypeSignature → List String
  | .mk (.mk name arguments) projections =>
    name :: (outermostNamesOfArguments arguments ++ outermostNamesOfProjections projections)

def outermostNamesOfProjections : List SimpleClassSignature → List String
  | [] => []
  | .mk _ arguments :: rest => outermostNamesOfArguments arguments ++ outermostNamesOfProjections rest

def outermostNamesOfArguments : List TypeArgument → List String
  | [] => []
  | argument :: rest => argument.outermostNames ++ outermostNamesOfArguments rest

def TypeArgument.outermostNames : TypeArgument → List String
  | .wildcard => []
  | .type _ type => type.outermostNames

end

mutual

def TypeSignature.mapOutermost (f : String → String) : TypeSignature → TypeSignature
  | .base type => .base type
  | .reference type => .reference (type.mapOutermost f)

def ReferenceSignature.mapOutermost (f : String → String) : ReferenceSignature → ReferenceSignature
  | .object type => .object (type.mapOutermost f)
  | .variable name => .variable name
  | .array element => .array (element.mapOutermost f)

def ClassTypeSignature.mapOutermost (f : String → String) : ClassTypeSignature → ClassTypeSignature
  | .mk (.mk name arguments) projections =>
    .mk (.mk (f name) (mapOutermostInArguments f arguments)) (mapOutermostInProjections f projections)

def mapOutermostInProjections (f : String → String) : List SimpleClassSignature → List SimpleClassSignature
  | [] => []
  | .mk name arguments :: rest => .mk name (mapOutermostInArguments f arguments) :: mapOutermostInProjections f rest

def mapOutermostInArguments (f : String → String) : List TypeArgument → List TypeArgument
  | [] => []
  | argument :: rest => argument.mapOutermost f :: mapOutermostInArguments f rest

def TypeArgument.mapOutermost (f : String → String) : TypeArgument → TypeArgument
  | .wildcard => .wildcard
  | .type bound type => .type bound (type.mapOutermost f)

end

/-! ## Declarations -/

def TypeParameter.outermostNames (parameter : TypeParameter) : List String :=
  parameter.classBound.elim [] ReferenceSignature.outermostNames ++
    parameter.interfaceBounds.flatMap ReferenceSignature.outermostNames

def ClassSignature.outermostNames (signature : ClassSignature) : List String :=
  signature.typeParameters.flatMap TypeParameter.outermostNames ++ signature.superclass.outermostNames ++
    signature.superinterfaces.flatMap ClassTypeSignature.outermostNames

def MethodSignature.outermostNames (signature : MethodSignature) : List String :=
  signature.typeParameters.flatMap TypeParameter.outermostNames ++
    signature.parameters.flatMap TypeSignature.outermostNames ++
    signature.result.elim [] TypeSignature.outermostNames ++
    signature.throws.flatMap ReferenceSignature.outermostNames

def GenericSignature.outermostNames : GenericSignature → List String
  | .ofClass signature => signature.outermostNames
  | .ofMethod signature => signature.outermostNames

section Map

variable (f : String → String)

def TypeParameter.mapOutermost (parameter : TypeParameter) : TypeParameter :=
  ⟨parameter.name, parameter.classBound.map (ReferenceSignature.mapOutermost f),
    parameter.interfaceBounds.map (ReferenceSignature.mapOutermost f)⟩

def ClassSignature.mapOutermost (signature : ClassSignature) : ClassSignature :=
  ⟨signature.typeParameters.map (TypeParameter.mapOutermost f), signature.superclass.mapOutermost f,
    signature.superinterfaces.map (ClassTypeSignature.mapOutermost f)⟩

def MethodSignature.mapOutermost (signature : MethodSignature) : MethodSignature :=
  ⟨signature.typeParameters.map (TypeParameter.mapOutermost f),
    signature.parameters.map (TypeSignature.mapOutermost f), signature.result.map (TypeSignature.mapOutermost f),
    signature.throws.map (ReferenceSignature.mapOutermost f)⟩

def GenericSignature.mapOutermost : GenericSignature → GenericSignature
  | .ofClass signature => .ofClass (signature.mapOutermost f)
  | .ofMethod signature => .ofMethod (signature.mapOutermost f)

end Map

/-! ## Well-formed results -/

/-- Names that may stand for classes are replaced by such names. -/
def KeepsClassIdentifiers (f : String → String) : Prop := ∀ name, IsClassIdentifier name → IsClassIdentifier (f name)

section WellFormed

variable {f : String → String}

mutual

theorem TypeSignature.WellFormed.mapOutermost (hf : KeepsClassIdentifiers f) (type : TypeSignature)
    (h : type.WellFormed) : (type.mapOutermost f).WellFormed :=
  match type, h with
  | .base _, _ => trivial
  | .reference type, h => ReferenceSignature.WellFormed.mapOutermost hf type h

theorem ReferenceSignature.WellFormed.mapOutermost (hf : KeepsClassIdentifiers f) (type : ReferenceSignature)
    (h : type.WellFormed) : (type.mapOutermost f).WellFormed :=
  match type, h with
  | .object type, h => ClassTypeSignature.WellFormed.mapOutermost hf type h
  | .variable _, h => h
  | .array element, h => TypeSignature.WellFormed.mapOutermost hf element h

theorem ClassTypeSignature.WellFormed.mapOutermost (hf : KeepsClassIdentifiers f) (type : ClassTypeSignature)
    (h : type.WellFormed) : (type.mapOutermost f).WellFormed :=
  match type, h with
  | .mk (.mk name arguments) projections, ⟨⟨hname, harguments⟩, hprojections⟩ =>
    ⟨⟨hf name hname, wellFormedArguments_mapOutermost hf arguments harguments⟩,
      wellFormedProjections_mapOutermost hf projections hprojections⟩

theorem wellFormedProjections_mapOutermost (hf : KeepsClassIdentifiers f) (projections : List SimpleClassSignature)
    (h : WellFormedProjections projections) : WellFormedProjections (mapOutermostInProjections f projections) :=
  match projections, h with
  | [], _ => trivial
  | .mk _ arguments :: rest, ⟨⟨hname, harguments⟩, hrest⟩ =>
    ⟨⟨hname, wellFormedArguments_mapOutermost hf arguments harguments⟩,
      wellFormedProjections_mapOutermost hf rest hrest⟩

theorem wellFormedArguments_mapOutermost (hf : KeepsClassIdentifiers f) (arguments : List TypeArgument)
    (h : WellFormedArguments arguments) : WellFormedArguments (mapOutermostInArguments f arguments) :=
  match arguments, h with
  | [], _ => trivial
  | argument :: rest, ⟨hargument, hrest⟩ =>
    ⟨TypeArgument.WellFormed.mapOutermost hf argument hargument, wellFormedArguments_mapOutermost hf rest hrest⟩

theorem TypeArgument.WellFormed.mapOutermost (hf : KeepsClassIdentifiers f) (argument : TypeArgument)
    (h : argument.WellFormed) : (argument.mapOutermost f).WellFormed :=
  match argument, h with
  | .wildcard, _ => trivial
  | .type _ type, h => ReferenceSignature.WellFormed.mapOutermost hf type h

end

variable (hf : KeepsClassIdentifiers f)

include hf

theorem TypeParameter.WellFormed.mapOutermost {parameter : TypeParameter} (h : parameter.WellFormed) :
    (parameter.mapOutermost f).WellFormed := by
  obtain ⟨hname, hclass, hinterfaces⟩ := h
  refine ⟨hname, fun bound hbound => ?_, List.forall_mem_map.2 fun bound hbound => ?_⟩
  · obtain ⟨bound, hmem, rfl⟩ := Option.map_eq_some_iff.1 hbound
    exact ReferenceSignature.WellFormed.mapOutermost hf bound (hclass bound hmem)
  · exact ReferenceSignature.WellFormed.mapOutermost hf bound (hinterfaces bound hbound)

omit hf in
theorem TypeParameter.isBare_mapOutermost (f : String → String) (parameter : TypeParameter) :
    (parameter.mapOutermost f).IsBare ↔ parameter.IsBare := by
  simp [IsBare, TypeParameter.mapOutermost]

theorem wellFormedParameters_mapOutermost (parameters : List TypeParameter) (h : WellFormedParameters parameters) :
    WellFormedParameters (parameters.map (TypeParameter.mapOutermost f)) := by
  induction parameters with
  | nil => trivial
  | cons parameter rest ih =>
    obtain ⟨hparameter, hnext, hrest⟩ := h
    refine ⟨hparameter.mapOutermost hf, fun hbare next hhead => ?_, ih hrest⟩
    rw [List.head?_map] at hhead
    obtain ⟨second, hsecond, rfl⟩ := Option.map_eq_some_iff.1 hhead
    exact hnext ((TypeParameter.isBare_mapOutermost f parameter).1 hbare) second hsecond

theorem ClassSignature.WellFormed.mapOutermost {signature : ClassSignature} (h : signature.WellFormed) :
    (signature.mapOutermost f).WellFormed where
  typeParameters := wellFormedParameters_mapOutermost hf _ h.typeParameters
  superclass := ClassTypeSignature.WellFormed.mapOutermost hf _ h.superclass
  superinterfaces := List.forall_mem_map.2 fun type hmem =>
    ClassTypeSignature.WellFormed.mapOutermost hf type (h.superinterfaces type hmem)

omit hf in
theorem ReferenceSignature.IsThrowable.mapOutermost {type : ReferenceSignature} (f : String → String)
    (h : type.IsThrowable) : (type.mapOutermost f).IsThrowable := by
  cases type with
  | array element => exact h.elim
  | _ => trivial

theorem MethodSignature.WellFormed.mapOutermost {signature : MethodSignature} (h : signature.WellFormed) :
    (signature.mapOutermost f).WellFormed where
  typeParameters := wellFormedParameters_mapOutermost hf _ h.typeParameters
  parameters := List.forall_mem_map.2 fun type hmem =>
    TypeSignature.WellFormed.mapOutermost hf type (h.parameters type hmem)
  result := fun _ hresult => by
    obtain ⟨type, hmem, rfl⟩ := Option.map_eq_some_iff.1 hresult
    exact TypeSignature.WellFormed.mapOutermost hf type (h.result type hmem)
  throws := List.forall_mem_map.2 fun type hmem =>
    ⟨ReferenceSignature.WellFormed.mapOutermost hf type (h.throws type hmem).1, (h.throws type hmem).2.mapOutermost f⟩

theorem GenericSignature.WellFormed.mapOutermost {signature : GenericSignature} (h : signature.WellFormed) :
    (signature.mapOutermost f).WellFormed := by
  cases signature with
  | ofClass signature => exact ClassSignature.WellFormed.mapOutermost hf h
  | ofMethod signature => exact MethodSignature.WellFormed.mapOutermost hf h

end WellFormed

end ClassSandbox
