import ClassSandbox.Proofs.Confinement.Plain
import ClassSandbox.Proofs.Confinement.Results
import ClassSandbox.Proofs.Resolution.Nesting
import ClassSandbox.Proofs.Resolution.Refusal
import ClassSandbox.Proofs.Signature.Outermost

/-!
# Resolved signatures are renamed

What a signature resolves to is its tree with the outermost class names replaced by what they resolve to
(`resolvedSignatures_renamed`). Projections are looked up too, by the name of the class that they select, but they
keep their names, since resolution never touches what is nested (`getD_nestedName?`). Resolved names may stand for
classes, so the tree is well-formed and its text is read again.
-/

namespace ClassSandbox.Resolver

variable {r : Resolver}

/-- What a class name turns into, whether or not there is somebody to blame. -/
def rename (r : Resolver) (name : String) : String := (r.verdict name).resolved

/-- Resolution has accepted these class names. -/
def Accepts (r : Resolver) (names : List String) : Prop := ∀ name ∈ names, MayGive (r.resolveClass name) (r.rename name)

theorem accepts_nil : r.Accepts [] := nofun

theorem Accepts.append {names others : List String} (h : r.Accepts names) (h' : r.Accepts others) :
    r.Accepts (names ++ others) := List.forall_mem_append.2 ⟨h, h'⟩

theorem eq_rename_of_mayGive {name resolved : String} (h : MayGive (r.resolveClass name) resolved) :
    resolved = r.rename name := by
  obtain ⟨before, after, h⟩ := h
  exact (outcome_resolveClass_ok h).1

theorem accepts_singleton {name resolved : String} (h : MayGive (r.resolveClass name) resolved) :
    r.Accepts [name] := by
  obtain rfl := eq_rename_of_mayGive h
  exact List.forall_mem_singleton.2 h

theorem keepsClassIdentifiers_rename (hplain : r.settings.Plain) : KeepsClassIdentifiers r.rename :=
  fun _ => isClassIdentifier_resolved hplain

/-! ## Types -/

mutual

theorem typeSignature_renamed (hplain : r.settings.Plain) (type : TypeSignature) (hwell : type.WellFormed)
    {new : TypeSignature} (h : MayGive (type.mapNames r.resolveClass) new) :
    new = type.mapOutermost r.rename ∧ r.Accepts type.outermostNames :=
  match type, hwell with
  | .base type, _ => by
    rw [TypeSignature.mapNames] at h
    obtain rfl := mayGive_pure h
    exact ⟨rfl, accepts_nil⟩
  | .reference type, hwell => by
    rw [TypeSignature.mapNames] at h
    obtain ⟨found, hfound, h⟩ := mayGive_bind h
    obtain rfl := mayGive_pure h
    obtain ⟨rfl, haccepts⟩ := referenceSignature_renamed hplain type hwell hfound
    exact ⟨rfl, haccepts⟩

theorem referenceSignature_renamed (hplain : r.settings.Plain) (type : ReferenceSignature) (hwell : type.WellFormed)
    {new : ReferenceSignature} (h : MayGive (type.mapNames r.resolveClass) new) :
    new = type.mapOutermost r.rename ∧ r.Accepts type.outermostNames :=
  match type, hwell with
  | .object type, hwell => by
    rw [ReferenceSignature.mapNames] at h
    obtain ⟨found, hfound, h⟩ := mayGive_bind h
    obtain rfl := mayGive_pure h
    obtain ⟨rfl, haccepts⟩ := classTypeSignature_renamed hplain type hwell hfound
    exact ⟨rfl, haccepts⟩
  | .variable name, _ => by
    rw [ReferenceSignature.mapNames] at h
    obtain rfl := mayGive_pure h
    exact ⟨rfl, accepts_nil⟩
  | .array element, hwell => by
    rw [ReferenceSignature.mapNames] at h
    obtain ⟨found, hfound, h⟩ := mayGive_bind h
    obtain rfl := mayGive_pure h
    obtain ⟨rfl, haccepts⟩ := typeSignature_renamed hplain element hwell hfound
    exact ⟨rfl, haccepts⟩

theorem classTypeSignature_renamed (hplain : r.settings.Plain) (type : ClassTypeSignature) (hwell : type.WellFormed)
    {new : ClassTypeSignature} (h : MayGive (type.mapNames r.resolveClass) new) :
    new = type.mapOutermost r.rename ∧ r.Accepts type.outermostNames :=
  match type, hwell with
  | .mk (.mk name arguments) projections, ⟨⟨hname, harguments⟩, hprojections⟩ => by
    rw [ClassTypeSignature.mapNames] at h
    obtain ⟨newName, hnewName, h⟩ := mayGive_bind h
    obtain ⟨newArguments, hnewArguments, h⟩ := mayGive_bind h
    obtain ⟨newProjections, hnewProjections, h⟩ := mayGive_bind h
    obtain rfl := mayGive_pure h
    have haccepted := accepts_singleton hnewName
    obtain rfl := eq_rename_of_mayGive hnewName
    have hclass := BinaryName.head?_ne_bracket (isValid_of_isClassIdentifier hname)
    obtain ⟨rfl, hinArguments⟩ := arguments_renamed hplain arguments harguments hnewArguments
    obtain ⟨rfl, hinProjections⟩ := projections_renamed hplain projections hprojections hclass hnewProjections
    exact ⟨rfl, haccepted.append (hinArguments.append hinProjections)⟩

/-- Projections keep their names, whatever the classes that they select turn into. -/
theorem projections_renamed (hplain : r.settings.Plain) (projections : List SimpleClassSignature)
    (hwell : WellFormedProjections projections) {outer : String} (hclass : outer.toList.head? ≠ some '[')
    {news : List SimpleClassSignature}
    (h : MayGive (mapProjectionNames r.resolveClass outer (r.rename outer) projections) news) :
    news = mapOutermostInProjections r.rename projections ∧ r.Accepts (outermostNamesOfProjections projections) :=
  match projections, hwell with
  | [], _ => by
    rw [mapProjectionNames] at h
    obtain rfl := mayGive_pure h
    exact ⟨rfl, accepts_nil⟩
  | .mk name arguments :: rest, ⟨⟨_, harguments⟩, hrest⟩ => by
    rw [mapProjectionNames] at h
    obtain ⟨newFull, hnewFull, h⟩ := mayGive_bind h
    obtain ⟨newArguments, hnewArguments, h⟩ := mayGive_bind h
    obtain ⟨newRest, hnewRest, h⟩ := mayGive_bind h
    obtain rfl := mayGive_pure h
    obtain rfl := eq_rename_of_mayGive hnewFull
    have hkeeps : (nestedName? (r.rename outer) (r.rename (nestedName outer name))).getD name = name :=
      getD_nestedName? hplain hclass name
    obtain ⟨rfl, hinArguments⟩ := arguments_renamed hplain arguments harguments hnewArguments
    obtain ⟨rfl, hinRest⟩ := projections_renamed hplain rest hrest (head?_nestedName_ne hclass name) hnewRest
    rw [hkeeps]
    exact ⟨rfl, hinArguments.append hinRest⟩

theorem arguments_renamed (hplain : r.settings.Plain) (arguments : List TypeArgument)
    (hwell : WellFormedArguments arguments) {news : List TypeArgument}
    (h : MayGive (mapArgumentNames r.resolveClass arguments) news) :
    news = mapOutermostInArguments r.rename arguments ∧ r.Accepts (outermostNamesOfArguments arguments) :=
  match arguments, hwell with
  | [], _ => by
    rw [mapArgumentNames] at h
    obtain rfl := mayGive_pure h
    exact ⟨rfl, accepts_nil⟩
  | argument :: rest, ⟨hargument, hrest⟩ => by
    rw [mapArgumentNames] at h
    obtain ⟨newArgument, hnewArgument, h⟩ := mayGive_bind h
    obtain ⟨newRest, hnewRest, h⟩ := mayGive_bind h
    obtain rfl := mayGive_pure h
    obtain ⟨rfl, hinArgument⟩ := typeArgument_renamed hplain argument hargument hnewArgument
    obtain ⟨rfl, hinRest⟩ := arguments_renamed hplain rest hrest hnewRest
    exact ⟨rfl, hinArgument.append hinRest⟩

theorem typeArgument_renamed (hplain : r.settings.Plain) (argument : TypeArgument) (hwell : argument.WellFormed)
    {new : TypeArgument} (h : MayGive (argument.mapNames r.resolveClass) new) :
    new = argument.mapOutermost r.rename ∧ r.Accepts argument.outermostNames :=
  match argument, hwell with
  | .wildcard, _ => by
    rw [TypeArgument.mapNames] at h
    obtain rfl := mayGive_pure h
    exact ⟨rfl, accepts_nil⟩
  | .type bound type, hwell => by
    rw [TypeArgument.mapNames] at h
    obtain ⟨found, hfound, h⟩ := mayGive_bind h
    obtain rfl := mayGive_pure h
    obtain ⟨rfl, haccepts⟩ := referenceSignature_renamed hplain type hwell hfound
    exact ⟨rfl, haccepts⟩

end

/-! ## Declarations -/

section Walks

variable {α : Type} {f : α → Resolution α} {g : α → α} {names : α → List String}

theorem listMapM_renamed {items news : List α}
    (hitems : ∀ item ∈ items, ∀ new, MayGive (f item) new → new = g item ∧ r.Accepts (names item))
    (h : MayGive (items.mapM f) news) : news = items.map g ∧ r.Accepts (items.flatMap names) := by
  induction items generalizing news with
  | nil =>
    obtain rfl := mayGive_pure h
    exact ⟨rfl, accepts_nil⟩
  | cons item items ih =>
    rw [List.forall_mem_cons] at hitems
    rw [List.mapM_cons] at h
    obtain ⟨new, hnew, h⟩ := mayGive_bind h
    obtain ⟨others, hothers, h⟩ := mayGive_bind h
    obtain rfl := mayGive_pure h
    obtain ⟨rfl, hfirst⟩ := hitems.1 new hnew
    obtain ⟨rfl, hrest⟩ := ih hitems.2 hothers
    exact ⟨rfl, hfirst.append hrest⟩

theorem optionMapM_renamed {item new : Option α}
    (hitem : ∀ a ∈ item, ∀ new, MayGive (f a) new → new = g a ∧ r.Accepts (names a))
    (h : MayGive (item.mapM f) new) : new = item.map g ∧ r.Accepts (item.elim [] names) := by
  cases item with
  | none =>
    obtain rfl := mayGive_pure h
    exact ⟨rfl, accepts_nil⟩
  | some a =>
    rw [Option.mapM_some, ← bind_pure_comp] at h
    obtain ⟨found, hfound, h⟩ := mayGive_bind h
    obtain rfl := mayGive_pure h
    obtain ⟨rfl, haccepts⟩ := hitem a rfl found hfound
    exact ⟨rfl, haccepts⟩

end Walks

variable (hplain : r.settings.Plain)

include hplain

theorem typeParameter_renamed {parameter new : TypeParameter} (hwell : parameter.WellFormed)
    (h : MayGive (parameter.mapNames r.resolveClass) new) :
    new = parameter.mapOutermost r.rename ∧ r.Accepts parameter.outermostNames := by
  obtain ⟨-, hclass, hinterfaces⟩ := hwell
  obtain ⟨classBound, hclassBound, h⟩ := mayGive_bind h
  obtain ⟨bounds, hbounds, h⟩ := mayGive_bind h
  obtain rfl := mayGive_pure h
  obtain ⟨rfl, hinClass⟩ := optionMapM_renamed
    (fun bound hmem _ => referenceSignature_renamed hplain bound (hclass bound hmem)) hclassBound
  obtain ⟨rfl, hinInterfaces⟩ := listMapM_renamed
    (fun bound hmem _ => referenceSignature_renamed hplain bound (hinterfaces bound hmem)) hbounds
  exact ⟨rfl, hinClass.append hinInterfaces⟩

theorem typeParameters_renamed {parameters news : List TypeParameter} (hwell : WellFormedParameters parameters)
    (h : MayGive (parameters.mapM fun parameter => parameter.mapNames r.resolveClass) news) :
    news = parameters.map (TypeParameter.mapOutermost r.rename) ∧
      r.Accepts (parameters.flatMap TypeParameter.outermostNames) :=
  listMapM_renamed (fun parameter hmem _ =>
    typeParameter_renamed hplain (wellFormed_of_mem_parameters hwell parameter hmem)) h

theorem classSignature_renamed {signature new : ClassSignature} (hwell : signature.WellFormed)
    (h : MayGive (signature.mapNames r.resolveClass) new) :
    new = signature.mapOutermost r.rename ∧ r.Accepts signature.outermostNames := by
  obtain ⟨parameters, hparameters, h⟩ := mayGive_bind h
  obtain ⟨superclass, hsuperclass, h⟩ := mayGive_bind h
  obtain ⟨superinterfaces, hsuperinterfaces, h⟩ := mayGive_bind h
  obtain rfl := mayGive_pure h
  obtain ⟨rfl, hinParameters⟩ := typeParameters_renamed hplain hwell.typeParameters hparameters
  obtain ⟨rfl, hinSuperclass⟩ := classTypeSignature_renamed hplain _ hwell.superclass hsuperclass
  obtain ⟨rfl, hinSuperinterfaces⟩ := listMapM_renamed
    (fun type hmem _ => classTypeSignature_renamed hplain type (hwell.superinterfaces type hmem)) hsuperinterfaces
  exact ⟨rfl, (hinParameters.append hinSuperclass).append hinSuperinterfaces⟩

theorem methodSignature_renamed {signature new : MethodSignature} (hwell : signature.WellFormed)
    (h : MayGive (signature.mapNames r.resolveClass) new) :
    new = signature.mapOutermost r.rename ∧ r.Accepts signature.outermostNames := by
  obtain ⟨typeParameters, htypeParameters, h⟩ := mayGive_bind h
  obtain ⟨parameters, hparameters, h⟩ := mayGive_bind h
  obtain ⟨result, hresult, h⟩ := mayGive_bind h
  obtain ⟨throws, hthrows, h⟩ := mayGive_bind h
  obtain rfl := mayGive_pure h
  obtain ⟨rfl, hinTypeParameters⟩ := typeParameters_renamed hplain hwell.typeParameters htypeParameters
  obtain ⟨rfl, hinParameters⟩ := listMapM_renamed
    (fun type hmem _ => typeSignature_renamed hplain type (hwell.parameters type hmem)) hparameters
  obtain ⟨rfl, hinResult⟩ := optionMapM_renamed
    (fun type hmem _ => typeSignature_renamed hplain type (hwell.result type hmem)) hresult
  obtain ⟨rfl, hinThrows⟩ := listMapM_renamed
    (fun type hmem _ => referenceSignature_renamed hplain type (hwell.throws type hmem).1) hthrows
  exact ⟨rfl, ((hinTypeParameters.append hinParameters).append hinResult).append hinThrows⟩

theorem genericSignature_renamed {signature new : GenericSignature} (hwell : signature.WellFormed)
    (h : MayGive (signature.mapNames r.resolveClass) new) :
    new = signature.mapOutermost r.rename ∧ r.Accepts signature.outermostNames := by
  cases signature with
  | ofClass signature =>
    obtain ⟨found, hfound, h⟩ := mayGive_bind h
    obtain rfl := mayGive_pure h
    obtain ⟨rfl, haccepts⟩ := classSignature_renamed hplain hwell hfound
    exact ⟨rfl, haccepts⟩
  | ofMethod signature =>
    obtain ⟨found, hfound, h⟩ := mayGive_bind h
    obtain rfl := mayGive_pure h
    obtain ⟨rfl, haccepts⟩ := methodSignature_renamed hplain hwell hfound
    exact ⟨rfl, haccepts⟩

omit hplain

/-! ## Texts -/

/-- One text is read as a tree, and the other one is written out from the tree with its outermost class names replaced
by what they resolve to, and is read as just that. -/
def IsRenamed {α : Type} (r : Resolver) (parser : Parser α) (render : α → List Char) (outermostNames : α → List String)
    (mapOutermost : (String → String) → α → α) (old new : String) : Prop :=
  ∃ (tree : α) (rename : String → String), parseAll parser old = .ok tree ∧
    (∀ name ∈ outermostNames tree, r.Resolves resolveClass name (rename name)) ∧
    new = String.ofList (render (mapOutermost rename tree)) ∧ parseAll parser new = .ok (mapOutermost rename tree)

theorem Accepts.resolves {names : List String} (h : r.Accepts names) :
    ∀ name ∈ names, r.Resolves resolveClass name (r.rename name) := fun name hmem =>
  resolves_of_mayGive (h name hmem) fun silenced => (r.results_matches silenced).resolveClass name

/-- A text that is resolved was read. -/
theorem exists_of_resolveWith {α : Type} {parser : Parser α} {render : α → List Char}
    {mapNames : (String → Resolution String) → α → Resolution α} {old new : String}
    (h : MayGive (r.resolveWith parser render mapNames (some old)) (some new)) :
    ∃ tree resolved, parseAll parser old = .ok tree ∧ MayGive (mapNames r.resolveClass tree) resolved ∧
      new = String.ofList (render resolved) := by
  unfold resolveWith at h
  dsimp only at h
  split at h
  · obtain ⟨_, -, h⟩ := mayGive_bind h
    cases mayGive_pure h
  · rename_i tree hread
    obtain ⟨resolved, hresolved, h⟩ := mayGive_bind h
    cases mayGive_pure h
    exact ⟨tree, resolved, hread, hresolved, rfl⟩

/-- With standard namespaces, resolving a signature replaces its outermost class names by what they resolve to, and
nothing else, and the result is read again. -/
theorem resolvedSignatures_renamed {mode : ViolationMode} (hstandard : r.settings = { Settings.standard with mode })
    (old new : String) (before after : Findings) :
    (outcome (r.resolveSignature (some old)) before = (.ok (some new), after) →
        r.IsRenamed GenericSignature.read GenericSignature.render GenericSignature.outermostNames
          GenericSignature.mapOutermost old new) ∧
      (outcome (r.resolveFieldSignature (some old)) before = (.ok (some new), after) →
        r.IsRenamed ReferenceSignature.read ReferenceSignature.render ReferenceSignature.outermostNames
          ReferenceSignature.mapOutermost old new) := by
  have hplain : r.settings.Plain := hstandard ▸ Settings.plain_standard mode
  have hkeeps := keepsClassIdentifiers_rename hplain
  constructor
  · intro h
    obtain ⟨tree, resolved, hread, hresolved, rfl⟩ := exists_of_resolveWith ⟨before, after, h⟩
    have hwell := (GenericSignature.parseAll_read_iff.1 hread).1
    obtain ⟨rfl, haccepts⟩ := genericSignature_renamed hplain hwell hresolved
    exact ⟨tree, r.rename, hread, haccepts.resolves, rfl,
      GenericSignature.parseAll_read_iff.2 ⟨hwell.mapOutermost hkeeps, rfl⟩⟩
  · intro h
    obtain ⟨tree, resolved, hread, hresolved, rfl⟩ := exists_of_resolveWith ⟨before, after, h⟩
    have hwell := (ReferenceSignature.parseAll_read_iff.1 hread).1
    obtain ⟨rfl, haccepts⟩ := referenceSignature_renamed hplain tree hwell hresolved
    exact ⟨tree, r.rename, hread, haccepts.resolves, rfl,
      ReferenceSignature.parseAll_read_iff.2 ⟨ReferenceSignature.WellFormed.mapOutermost hkeeps tree hwell, rfl⟩⟩

/-! ## An example -/

section Example

theorem verdict_nested :
    (exampleResolver true).verdict "java/util/Map$Entry" = ⟨"sandboxed/java/util/Map$Entry", none⟩ := by
  have hallowed : (exampleResolver true).policy.allows "java/util/Map$Entry" = true :=
    (Policy.allows_ofLists ["java/util"] [] ⟨"java/util/Map$Entry", by decide⟩).trans (by decide)
  rw [verdict_eq_freshVerdict (by decide) (by decide) (by decide) (by decide), freshVerdict, hallowed]
  decide

/-- A class nested in another one, as a superclass or as the type of a field. -/
theorem outcome_resolve_nested :
    outcome ((exampleResolver true).resolveSignature (some "Ljava/util/Map.Entry;")) .none =
        (.ok (some "Lsandboxed/java/util/Map.Entry;"), .none) ∧
      outcome ((exampleResolver true).resolveFieldSignature (some "Ljava/util/Map.Entry;")) .none =
        (.ok (some "Lsandboxed/java/util/Map.Entry;"), .none) := by
  have houter : outcome ((exampleResolver true).resolveClass "java/util/Map") .none =
      (.ok "sandboxed/java/util/Map", .none) := outcome_resolveClass_of_verdict rfl (verdict_exampleResolver true)
  have hinner : outcome ((exampleResolver true).resolveClass (nestedName "java/util/Map" "Entry")) .none =
      (.ok "sandboxed/java/util/Map$Entry", .none) := outcome_resolveClass_of_verdict rfl verdict_nested
  have hname : nestedName? "sandboxed/java/util/Map" "sandboxed/java/util/Map$Entry" = some "Entry" := by decide
  have htype : outcome ((ClassTypeSignature.mk (.mk "java/util/Map" []) [.mk "Entry" []]).mapNames
      (exampleResolver true).resolveClass) .none =
        (.ok (.mk (.mk "sandboxed/java/util/Map" []) [.mk "Entry" []]), .none) := by
    simp only [ClassTypeSignature.mapNames, mapArgumentNames, mapProjectionNames, outcome_bind, outcome_pure, houter,
      hinner, hname]
    rfl
  have hclass : parseAll GenericSignature.read "Ljava/util/Map.Entry;" =
      .ok (.ofClass ⟨[], .mk (.mk "java/util/Map" []) [.mk "Entry" []], []⟩) :=
    GenericSignature.parseAll_read_iff.2
      ⟨⟨trivial, ⟨⟨by decide, trivial⟩, ⟨by decide, trivial⟩, trivial⟩, nofun⟩, by decide⟩
  have hfield : parseAll ReferenceSignature.read "Ljava/util/Map.Entry;" =
      .ok (.object (.mk (.mk "java/util/Map" []) [.mk "Entry" []])) :=
    ReferenceSignature.parseAll_read_iff.2 ⟨⟨⟨by decide, trivial⟩, ⟨by decide, trivial⟩, trivial⟩, by decide⟩
  constructor
  · simp only [resolveSignature, resolveWith, hclass, GenericSignature.mapNames, ClassSignature.mapNames, List.mapM_nil,
      outcome_bind, outcome_pure, htype]
    rfl
  · simp only [resolveFieldSignature, resolveWith, hfield, ReferenceSignature.mapNames, outcome_bind, outcome_pure,
      htype]
    rfl

theorem resolvedSignatures_renamed_nested :
    (exampleResolver true).settings = { Settings.standard with mode := .strict } ∧
      (exampleResolver true).IsRenamed GenericSignature.read GenericSignature.render GenericSignature.outermostNames
        GenericSignature.mapOutermost "Ljava/util/Map.Entry;" "Lsandboxed/java/util/Map.Entry;" ∧
      (exampleResolver true).IsRenamed ReferenceSignature.read ReferenceSignature.render
        ReferenceSignature.outermostNames ReferenceSignature.mapOutermost "Ljava/util/Map.Entry;"
        "Lsandboxed/java/util/Map.Entry;" :=
  ⟨rfl, (resolvedSignatures_renamed rfl _ _ .none .none).1 outcome_resolve_nested.1,
    (resolvedSignatures_renamed rfl _ _ .none .none).2 outcome_resolve_nested.2⟩

end Example

end ClassSandbox.Resolver
