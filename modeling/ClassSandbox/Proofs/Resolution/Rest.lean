import ClassSandbox.Proofs.Confinement.Results
import ClassSandbox.Proofs.Resolution.Idempotence
import ClassSandbox.Proofs.Resolution.Nesting
import ClassSandbox.Proofs.Signature.Declarations

/-!
# Resolved texts are at rest

In strict mode, what an operation has given is given once more whenever the operation is repeated: it is at rest
(`Rests`). For class names and descriptors this is idempotence. A signature may also be refused when it is resolved
again (`rests_resolveSignature`, `rests_resolveFieldSignature`), since a class that is nested in a substitute was
looked up by another name the first time.
-/

namespace ClassSandbox.Resolver

variable {r : Resolver}

/-! ## Resolutions at rest -/

section Rests

variable {α β : Type} {x : Resolution α} {next : α → Resolution β} {a : α} {b : β}

/-- Whatever was found before, the resolution gives this value, unless it blames a name that only resolved names
lead to. -/
def Rests (r : Resolver) (x : Resolution α) (a : α) : Prop :=
  ∀ findings, (outcome x findings).1 = .ok a ∨
    ∃ offender, r.BlamesLater offender ∧ (outcome x findings).1 = .error (.violation ⟨offender, r.sandbox.text⟩)

theorem rests_pure : r.Rests (pure a) a := fun _ => .inl rfl

theorem Rests.bind (hx : r.Rests x a) (hnext : r.Rests (next a) b) : r.Rests (x >>= next) b := by
  intro findings
  have hfirst := hx findings
  rw [outcome_bind]
  generalize outcome x findings = found at hfirst ⊢
  obtain ⟨result, after⟩ := found
  rcases hfirst with h | ⟨offender, hlater, h⟩
  · obtain rfl : result = .ok a := h
    exact hnext after
  · obtain rfl : result = .error _ := h
    exact .inr ⟨offender, hlater, rfl⟩

theorem rests_listMapM {f : α → Resolution α} {items : List α} (h : ∀ a ∈ items, r.Rests (f a) a) :
    r.Rests (items.mapM f) items := by
  induction items with
  | nil => exact rests_pure
  | cons a items ih =>
    rw [List.forall_mem_cons] at h
    rw [List.mapM_cons]
    exact h.1.bind ((ih h.2).bind rests_pure)

theorem rests_optionMapM {f : α → Resolution α} {item : Option α} (h : ∀ a ∈ item, r.Rests (f a) a) :
    r.Rests (item.mapM f) item := by
  cases item with
  | none => exact rests_pure
  | some a =>
    rw [Option.mapM_some, ← bind_pure_comp]
    exact (h a rfl).bind rests_pure

/-- What holds of whatever an item may turn into holds of all the results. -/
theorem forall_mem_of_mayGive_listMapM {f : α → Resolution β} {items : List α} {results : List β} {P : β → Prop}
    (hitems : ∀ a ∈ items, ∀ b, MayGive (f a) b → P b) (h : MayGive (items.mapM f) results) :
    ∀ b ∈ results, P b := by
  induction items generalizing results with
  | nil =>
    obtain rfl := mayGive_pure h
    exact nofun
  | cons a items ih =>
    rw [List.forall_mem_cons] at hitems
    rw [List.mapM_cons] at h
    obtain ⟨first, hfirst, h⟩ := mayGive_bind h
    obtain ⟨others, hothers, h⟩ := mayGive_bind h
    obtain rfl := mayGive_pure h
    exact List.forall_mem_cons.2 ⟨hitems.1 first hfirst, ih hitems.2 hothers⟩

theorem forall_mem_of_mayGive_optionMapM {f : α → Resolution β} {item : Option α} {result : Option β} {P : β → Prop}
    (hitem : ∀ a ∈ item, ∀ b, MayGive (f a) b → P b) (h : MayGive (item.mapM f) result) : ∀ b ∈ result, P b := by
  cases item with
  | none =>
    obtain rfl := mayGive_pure h
    exact nofun
  | some a =>
    rw [Option.mapM_some, ← bind_pure_comp] at h
    obtain ⟨found, hfound, h⟩ := mayGive_bind h
    obtain rfl := mayGive_pure h
    rintro b ⟨⟩
    exact hitem a rfl found hfound

end Rests

/-! ## Class names -/

/-- A name is resolved, unless the one to blame for it is only met later. -/
theorem rests_resolveClass (hmode : r.settings.mode = .strict) {name : String}
    (hlater : ∀ offender, (r.verdict name).offender? = some offender → r.BlamesLater offender) :
    r.Rests (r.resolveClass name) (r.verdict name).resolved := by
  intro findings
  rw [resolveClass_eq, outcome_bind]
  cases hoffender : (r.verdict name).offender? with
  | none =>
    left
    rw [blame, outcome_pure]
    simp only [outcome_bind, outcome_reportMove, outcome_pure]
  | some offender =>
    right
    refine ⟨offender, hlater offender hoffender, ?_⟩
    rw [blame, outcome_refuse_strict r hmode]

theorem rests_resolveClass_of_kept (hmode : r.settings.mode = .strict) {name : String}
    (hkept : r.verdict name = ⟨name, none⟩) : r.Rests (r.resolveClass name) name := by
  have hrests : r.Rests (r.resolveClass name) (r.verdict name).resolved :=
    rests_resolveClass hmode (by rw [hkept]; exact nofun)
  rwa [hkept] at hrests

/-- A name that was given is one to keep. -/
theorem kept_of_mayGive (hmode : r.settings.mode = .strict) (hplain : r.settings.Plain) {name resolved : String}
    (h : MayGive (r.resolveClass name) resolved) : r.verdict resolved = ⟨resolved, none⟩ := by
  simpa [Stays, verdict_of_mayGive hmode h] using stays_verdict hplain.apart name

theorem rests_resolveClass_of_mayGive (hmode : r.settings.mode = .strict) (hplain : r.settings.Plain)
    {name resolved : String} (h : MayGive (r.resolveClass name) resolved) :
    r.Rests (r.resolveClass resolved) resolved :=
  rests_resolveClass_of_kept hmode (kept_of_mayGive hmode hplain h)

/-! ## Types in signatures -/

mutual

theorem rests_typeSignature (hmode : r.settings.mode = .strict) (hplain : r.settings.Plain)
    (type : TypeSignature) (hwell : type.WellFormed) {new : TypeSignature}
    (h : MayGive (type.mapNames r.resolveClass) new) :
    new.WellFormed ∧ r.Rests (new.mapNames r.resolveClass) new :=
  match type, hwell with
  | .base type, _ => by
    rw [TypeSignature.mapNames] at h
    obtain rfl := mayGive_pure h
    exact ⟨trivial, rests_pure⟩
  | .reference type, hwell => by
    rw [TypeSignature.mapNames] at h
    obtain ⟨found, hfound, h⟩ := mayGive_bind h
    obtain rfl := mayGive_pure h
    obtain ⟨hnew, hrests⟩ := rests_referenceSignature hmode hplain type hwell hfound
    rw [TypeSignature.mapNames]
    exact ⟨hnew, hrests.bind rests_pure⟩

theorem rests_referenceSignature (hmode : r.settings.mode = .strict) (hplain : r.settings.Plain)
    (type : ReferenceSignature) (hwell : type.WellFormed) {new : ReferenceSignature}
    (h : MayGive (type.mapNames r.resolveClass) new) :
    new.WellFormed ∧ r.Rests (new.mapNames r.resolveClass) new :=
  match type, hwell with
  | .object type, hwell => by
    rw [ReferenceSignature.mapNames] at h
    obtain ⟨found, hfound, h⟩ := mayGive_bind h
    obtain rfl := mayGive_pure h
    obtain ⟨hnew, hrests⟩ := rests_classTypeSignature hmode hplain type hwell hfound
    rw [ReferenceSignature.mapNames]
    exact ⟨hnew, hrests.bind rests_pure⟩
  | .variable name, hwell => by
    rw [ReferenceSignature.mapNames] at h
    obtain rfl := mayGive_pure h
    exact ⟨hwell, rests_pure⟩
  | .array element, hwell => by
    rw [ReferenceSignature.mapNames] at h
    obtain ⟨found, hfound, h⟩ := mayGive_bind h
    obtain rfl := mayGive_pure h
    obtain ⟨hnew, hrests⟩ := rests_typeSignature hmode hplain element hwell hfound
    rw [ReferenceSignature.mapNames]
    exact ⟨hnew, hrests.bind rests_pure⟩

theorem rests_classTypeSignature (hmode : r.settings.mode = .strict) (hplain : r.settings.Plain)
    (type : ClassTypeSignature) (hwell : type.WellFormed) {new : ClassTypeSignature}
    (h : MayGive (type.mapNames r.resolveClass) new) :
    new.WellFormed ∧ r.Rests (new.mapNames r.resolveClass) new :=
  match type, hwell with
  | .mk (.mk name arguments) projections, ⟨⟨hname, harguments⟩, hprojections⟩ => by
    rw [ClassTypeSignature.mapNames] at h
    obtain ⟨newName, hnewName, h⟩ := mayGive_bind h
    obtain ⟨newArguments, hnewArguments, h⟩ := mayGive_bind h
    obtain ⟨newProjections, hnewProjections, h⟩ := mayGive_bind h
    obtain rfl := mayGive_pure h
    have hverdict := verdict_of_mayGive hmode hnewName
    have hclass := BinaryName.head?_ne_bracket (isValid_of_isClassIdentifier hname)
    have hkept := kept_of_mayGive hmode hplain hnewName
    have hmeets : r.Meets name newName := by
      simpa [hverdict] using meets_resolved hplain hclass (by rw [hverdict])
    have hidentifier : IsClassIdentifier newName := by
      simpa [hverdict] using isClassIdentifier_resolved hplain hname
    obtain ⟨hwellArguments, hrestsArguments⟩ := rests_arguments hmode hplain arguments harguments hnewArguments
    obtain ⟨hwellProjections, hrestsProjections⟩ :=
      rests_projections hmode hplain projections hprojections hclass hverdict hnewProjections
    have hrests := hrestsProjections newName hmeets
      (BinaryName.head?_ne_bracket (isValid_of_isClassIdentifier hidentifier))
    rw [hkept] at hrests
    rw [ClassTypeSignature.mapNames]
    exact ⟨⟨⟨hidentifier, hwellArguments⟩, hwellProjections⟩,
      (rests_resolveClass_of_kept hmode hkept).bind (hrestsArguments.bind (hrests.bind rests_pure))⟩

/-- Projections may be selected again from any class that meets the original one, since they keep their names. -/
theorem rests_projections (hmode : r.settings.mode = .strict) (hplain : r.settings.Plain)
    (projections : List SimpleClassSignature) (hwell : WellFormedProjections projections)
    {outer newOuter : String} (hclass : outer.toList.head? ≠ some '[')
    (houter : r.verdict outer = ⟨newOuter, none⟩) {news : List SimpleClassSignature}
    (h : MayGive (mapProjectionNames r.resolveClass outer newOuter projections) news) :
    WellFormedProjections news ∧ ∀ outer', r.Meets outer outer' → outer'.toList.head? ≠ some '[' →
      r.Rests (mapProjectionNames r.resolveClass outer' (r.verdict outer').resolved news) news :=
  match projections, hwell with
  | [], _ => by
    rw [mapProjectionNames] at h
    obtain rfl := mayGive_pure h
    exact ⟨trivial, fun _ _ _ => rests_pure⟩
  | .mk name arguments :: more, ⟨⟨hname, harguments⟩, hmore⟩ => by
    rw [mapProjectionNames] at h
    obtain ⟨newFull, hnewFull, h⟩ := mayGive_bind h
    obtain ⟨newArguments, hnewArguments, h⟩ := mayGive_bind h
    obtain ⟨newMore, hnewMore, h⟩ := mayGive_bind h
    have hnews := mayGive_pure h
    have hfull := verdict_of_mayGive hmode hnewFull
    have hkeeps := getD_nestedName? hplain hclass name
    rw [houter, hfull] at hkeeps
    rw [hkeeps] at hnews
    subst hnews
    obtain ⟨hwellArguments, hrestsArguments⟩ := rests_arguments hmode hplain arguments harguments hnewArguments
    obtain ⟨hwellMore, hrestsMore⟩ :=
      rests_projections hmode hplain more hmore (head?_nestedName_ne hclass name) hfull hnewMore
    refine ⟨⟨⟨hname, hwellArguments⟩, hwellMore⟩, fun outer' hmeets hclass' => ?_⟩
    have hlater := hmeets name (by rw [hfull])
    have hrests := hrestsMore _ (hmeets.nested name) (head?_nestedName_ne hclass' name)
    rw [mapProjectionNames]
    refine (rests_resolveClass hmode hlater).bind (hrestsArguments.bind (hrests.bind ?_))
    rw [getD_nestedName? hplain hclass' name]
    exact rests_pure

theorem rests_arguments (hmode : r.settings.mode = .strict) (hplain : r.settings.Plain)
    (arguments : List TypeArgument) (hwell : WellFormedArguments arguments)
    {news : List TypeArgument} (h : MayGive (mapArgumentNames r.resolveClass arguments) news) :
    WellFormedArguments news ∧ r.Rests (mapArgumentNames r.resolveClass news) news :=
  match arguments, hwell with
  | [], _ => by
    rw [mapArgumentNames] at h
    obtain rfl := mayGive_pure h
    exact ⟨trivial, rests_pure⟩
  | argument :: more, ⟨hargument, hmore⟩ => by
    rw [mapArgumentNames] at h
    obtain ⟨newArgument, hnewArgument, h⟩ := mayGive_bind h
    obtain ⟨newMore, hnewMore, h⟩ := mayGive_bind h
    obtain rfl := mayGive_pure h
    obtain ⟨hwellArgument, hrestsArgument⟩ := rests_typeArgument hmode hplain argument hargument hnewArgument
    obtain ⟨hwellMore, hrestsMore⟩ := rests_arguments hmode hplain more hmore hnewMore
    rw [mapArgumentNames]
    exact ⟨⟨hwellArgument, hwellMore⟩, hrestsArgument.bind (hrestsMore.bind rests_pure)⟩

theorem rests_typeArgument (hmode : r.settings.mode = .strict) (hplain : r.settings.Plain)
    (argument : TypeArgument) (hwell : argument.WellFormed) {new : TypeArgument}
    (h : MayGive (argument.mapNames r.resolveClass) new) :
    new.WellFormed ∧ r.Rests (new.mapNames r.resolveClass) new :=
  match argument, hwell with
  | .wildcard, _ => by
    rw [TypeArgument.mapNames] at h
    obtain rfl := mayGive_pure h
    exact ⟨trivial, rests_pure⟩
  | .type bound type, hwell => by
    rw [TypeArgument.mapNames] at h
    obtain ⟨found, hfound, h⟩ := mayGive_bind h
    obtain rfl := mayGive_pure h
    obtain ⟨hnew, hrests⟩ := rests_referenceSignature hmode hplain type hwell hfound
    rw [TypeArgument.mapNames]
    exact ⟨hnew, hrests.bind rests_pure⟩

end

/-! ## Declarations in signatures -/

variable (hmode : r.settings.mode = .strict) (hplain : r.settings.Plain)

theorem same_of_mapNames {parameter new : TypeParameter} (h : MayGive (parameter.mapNames r.resolveClass) new) :
    new.name = parameter.name ∧ (new.IsBare → parameter.IsBare) := by
  obtain ⟨classBound, hclassBound, h⟩ := mayGive_bind h
  obtain ⟨bounds, hbounds, h⟩ := mayGive_bind h
  obtain rfl := mayGive_pure h
  refine ⟨rfl, ?_⟩
  rintro ⟨hnone, hnil⟩
  obtain rfl : classBound = none := hnone
  obtain rfl : bounds = [] := hnil
  refine ⟨?_, List.forall₂_nil_right_iff.1 (forall₂_of_mayGive_mapM hbounds)⟩
  cases hbound : parameter.classBound with
  | none => rfl
  | some bound =>
    rw [hbound, Option.mapM_some, ← bind_pure_comp] at hclassBound
    obtain ⟨_, -, h⟩ := mayGive_bind hclassBound
    cases mayGive_pure h

theorem wellFormedParameters_of_forall₂ {parameters news : List TypeParameter}
    (hsame : List.Forall₂ (fun parameter new : TypeParameter =>
      new.name = parameter.name ∧ (new.IsBare → parameter.IsBare)) parameters news)
    (hnews : ∀ new ∈ news, new.WellFormed) (h : WellFormedParameters parameters) : WellFormedParameters news := by
  induction hsame with
  | nil => trivial
  | @cons parameter new parameters news hfirst hrest ih =>
    rw [List.forall_mem_cons] at hnews
    refine ⟨hnews.1, fun hbare next hnext => ?_, ih hnews.2 h.2.2⟩
    cases hrest with
    | nil => cases hnext
    | cons hsecond _ =>
      cases hnext
      rw [hsecond.1]
      exact h.2.1 (hfirst.2 hbare) _ rfl

include hmode hplain

theorem rests_typeParameter {parameter new : TypeParameter} (hwell : parameter.WellFormed)
    (h : MayGive (parameter.mapNames r.resolveClass) new) :
    new.WellFormed ∧ r.Rests (new.mapNames r.resolveClass) new := by
  obtain ⟨hname, hclass, hinterfaces⟩ := hwell
  obtain ⟨classBound, hclassBound, h⟩ := mayGive_bind h
  obtain ⟨bounds, hbounds, h⟩ := mayGive_bind h
  obtain rfl := mayGive_pure h
  have hclassBound := forall_mem_of_mayGive_optionMapM
    (fun bound hmem _ => rests_referenceSignature hmode hplain bound (hclass bound hmem)) hclassBound
  have hbounds := forall_mem_of_mayGive_listMapM
    (fun bound hmem _ => rests_referenceSignature hmode hplain bound (hinterfaces bound hmem)) hbounds
  exact ⟨⟨hname, fun bound hmem => (hclassBound bound hmem).1, fun bound hmem => (hbounds bound hmem).1⟩,
    (rests_optionMapM fun bound hmem => (hclassBound bound hmem).2).bind
      ((rests_listMapM fun bound hmem => (hbounds bound hmem).2).bind rests_pure)⟩

theorem rests_typeParameters {parameters news : List TypeParameter} (hwell : WellFormedParameters parameters)
    (h : MayGive (parameters.mapM fun parameter => parameter.mapNames r.resolveClass) news) :
    WellFormedParameters news ∧ r.Rests (news.mapM fun parameter => parameter.mapNames r.resolveClass) news := by
  have hnews := forall_mem_of_mayGive_listMapM (fun parameter hmem _ =>
    rests_typeParameter hmode hplain (wellFormed_of_mem_parameters hwell parameter hmem)) h
  have hsame := (forall₂_of_mayGive_mapM h).imp fun _ _ hnew => same_of_mapNames hnew
  exact ⟨wellFormedParameters_of_forall₂ hsame (fun new hmem => (hnews new hmem).1) hwell,
    rests_listMapM fun new hmem => (hnews new hmem).2⟩

theorem rests_classSignature {signature new : ClassSignature} (hwell : signature.WellFormed)
    (h : MayGive (signature.mapNames r.resolveClass) new) :
    new.WellFormed ∧ r.Rests (new.mapNames r.resolveClass) new := by
  obtain ⟨parameters, hparameters, h⟩ := mayGive_bind h
  obtain ⟨superclass, hsuperclass, h⟩ := mayGive_bind h
  obtain ⟨superinterfaces, hsuperinterfaces, h⟩ := mayGive_bind h
  obtain rfl := mayGive_pure h
  obtain ⟨hparameters, hparametersRest⟩ := rests_typeParameters hmode hplain hwell.typeParameters hparameters
  obtain ⟨hsuperclass, hsuperclassRests⟩ :=
    rests_classTypeSignature hmode hplain signature.superclass hwell.superclass hsuperclass
  have hsuperinterfaces := forall_mem_of_mayGive_listMapM
    (fun type hmem _ => rests_classTypeSignature hmode hplain type (hwell.superinterfaces type hmem))
    hsuperinterfaces
  exact ⟨⟨hparameters, hsuperclass, fun type hmem => (hsuperinterfaces type hmem).1⟩,
    hparametersRest.bind (hsuperclassRests.bind
      ((rests_listMapM fun type hmem => (hsuperinterfaces type hmem).2).bind rests_pure))⟩

omit hmode hplain in
theorem isThrowable_of_mapNames {type new : ReferenceSignature} (hthrowable : type.IsThrowable)
    (h : MayGive (type.mapNames r.resolveClass) new) : new.IsThrowable := by
  cases type with
  | array element => exact hthrowable.elim
  | object type =>
    rw [ReferenceSignature.mapNames] at h
    obtain ⟨_, -, h⟩ := mayGive_bind h
    obtain rfl := mayGive_pure h
    trivial
  | _ =>
    obtain rfl := mayGive_pure h
    trivial

theorem rests_methodSignature {signature new : MethodSignature} (hwell : signature.WellFormed)
    (h : MayGive (signature.mapNames r.resolveClass) new) :
    new.WellFormed ∧ r.Rests (new.mapNames r.resolveClass) new := by
  obtain ⟨typeParameters, hparameters, h⟩ := mayGive_bind h
  obtain ⟨parameters, htypes, h⟩ := mayGive_bind h
  obtain ⟨result, hresult, h⟩ := mayGive_bind h
  obtain ⟨throws, hthrows, h⟩ := mayGive_bind h
  obtain rfl := mayGive_pure h
  obtain ⟨hparameters, hparametersRest⟩ := rests_typeParameters hmode hplain hwell.typeParameters hparameters
  have htypes := forall_mem_of_mayGive_listMapM
    (fun type hmem _ => rests_typeSignature hmode hplain type (hwell.parameters type hmem)) htypes
  have hresult := forall_mem_of_mayGive_optionMapM
    (fun type hmem _ => rests_typeSignature hmode hplain type (hwell.result type hmem)) hresult
  have hthrowable := forall_mem_of_mayGive_listMapM
    (fun type hmem _ => isThrowable_of_mapNames (hwell.throws type hmem).2) hthrows
  have hthrows := forall_mem_of_mayGive_listMapM
    (fun type hmem _ => rests_referenceSignature hmode hplain type (hwell.throws type hmem).1) hthrows
  exact ⟨⟨hparameters, fun type hmem => (htypes type hmem).1, fun type hmem => (hresult type hmem).1,
      fun type hmem => ⟨(hthrows type hmem).1, hthrowable type hmem⟩⟩,
    hparametersRest.bind ((rests_listMapM fun type hmem => (htypes type hmem).2).bind
      ((rests_optionMapM fun type hmem => (hresult type hmem).2).bind
        ((rests_listMapM fun type hmem => (hthrows type hmem).2).bind rests_pure)))⟩

theorem rests_genericSignature (signature : GenericSignature) (hwell : signature.WellFormed)
    {new : GenericSignature} (h : MayGive (signature.mapNames r.resolveClass) new) :
    new.WellFormed ∧ r.Rests (new.mapNames r.resolveClass) new := by
  cases signature with
  | ofClass signature =>
    obtain ⟨found, hfound, h⟩ := mayGive_bind h
    obtain rfl := mayGive_pure h
    exact (rests_classSignature hmode hplain hwell hfound).imp_right fun hrests => hrests.bind rests_pure
  | ofMethod signature =>
    obtain ⟨found, hfound, h⟩ := mayGive_bind h
    obtain rfl := mayGive_pure h
    exact (rests_methodSignature hmode hplain hwell hfound).imp_right fun hrests => hrests.bind rests_pure

/-! ## Signatures -/

omit hplain in
/-- A signature that is given is one that can be read, and its tree is at rest. -/
theorem rests_resolveWith {α : Type} {parser : Parser α} {render : α → List Char}
    {mapNames : (String → Resolution String) → α → Resolution α} {WellFormed : α → Prop}
    (hparser : ∀ {signature : String} {value : α},
      parseAll parser signature = .ok value ↔ WellFormed value ∧ signature = String.ofList (render value))
    (hmap : ∀ value, WellFormed value → ∀ {new : α}, MayGive (mapNames r.resolveClass value) new →
      WellFormed new ∧ r.Rests (mapNames r.resolveClass new) new)
    {old new : Option String} (h : MayGive (r.resolveWith parser render mapNames old) new) :
    r.Rests (r.resolveWith parser render mapNames new) new ∧ (new = none ↔ old = none) := by
  unfold resolveWith at h
  split at h
  · obtain rfl := mayGive_pure h
    exact ⟨rests_pure, .rfl⟩
  · split at h
    · obtain ⟨_, hrefuse, -⟩ := mayGive_bind h
      exact absurd hrefuse (not_mayGive_refuse r hmode)
    · rename_i value hparse
      obtain ⟨found, hfound, h⟩ := mayGive_bind h
      obtain rfl := mayGive_pure h
      obtain ⟨hwell, hrests⟩ := hmap value (hparser.1 hparse).1 hfound
      have hagain : r.resolveWith parser render mapNames (some (String.ofList (render found))) = do
          let resolved ← mapNames r.resolveClass found
          return some (String.ofList (render resolved)) := by
        rw [resolveWith, hparser.2 ⟨hwell, rfl⟩]
      rw [hagain]
      exact ⟨hrests.bind rests_pure, nofun, nofun⟩

theorem rests_resolveSignature {old new : Option String} (h : MayGive (r.resolveSignature old) new) :
    r.Rests (r.resolveSignature new) new ∧ (new = none ↔ old = none) :=
  rests_resolveWith hmode GenericSignature.parseAll_read_iff (rests_genericSignature hmode hplain) h

theorem rests_resolveFieldSignature {old new : Option String} (h : MayGive (r.resolveFieldSignature old) new) :
    r.Rests (r.resolveFieldSignature new) new ∧ (new = none ↔ old = none) :=
  rests_resolveWith hmode ReferenceSignature.parseAll_read_iff (rests_referenceSignature hmode hplain) h

/-! ## Descriptors -/

omit hmode hplain in
/-- What can be repeated with the same result is at rest. -/
theorem rests_of_repeats {operation : Resolver → String → Resolution String} {old new : String}
    (hrepeats : Repeats (operation r old) (operation r)) (hsame : results.Rel (operation r new) (operation r new))
    (h : MayGive (operation r old) new) : r.Rests (operation r new) new := by
  intro findings
  obtain ⟨before, after, h⟩ := h
  obtain ⟨last, hagain, -⟩ := hrepeats.quiet h fun _ hmem => hmem
  left
  rw [hsame findings after, hagain]

omit hmode in
theorem rests_resolveDescriptor {old new : String} (h : MayGive (r.resolveDescriptor old) new) :
    r.Rests (r.resolveDescriptor new) new :=
  rests_of_repeats (repeats_resolveDescriptor hplain.apart old)
    ((r.results_matches r.silenced).resolveDescriptor new) h

omit hmode in
theorem rests_resolveMethodDescriptor {old new : String} (h : MayGive (r.resolveMethodDescriptor old) new) :
    r.Rests (r.resolveMethodDescriptor new) new :=
  rests_of_repeats (repeats_resolveMethodDescriptor hplain.apart old)
    ((r.results_matches r.silenced).resolveMethodDescriptor new) h

omit hplain in
/-- A method descriptor turns into another one. -/
theorem head?_of_resolveMethodDescriptor {old new : String} (h : MayGive (r.resolveMethodDescriptor old) new) :
    new.toList.head? = some '(' := by
  cases hparse : parseAll MethodDescriptor.read old with
  | error fault =>
    rw [resolveMethodDescriptor_of_error r hparse] at h
    obtain ⟨_, hrefuse, -⟩ := mayGive_bind h
    exact absurd hrefuse (not_mayGive_refuse r hmode)
  | ok parsed =>
    obtain rfl := MethodDescriptor.parseAll_read_iff.1 hparse
    rw [resolveMethodDescriptor_eq] at h
    obtain ⟨found, -, h⟩ := mayGive_bind h
    obtain rfl := mayGive_pure h
    simp [MethodDescriptor.render]

omit hmode hplain in
/-- No other descriptor turns into one that begins like the descriptor of a method. -/
theorem head?_of_resolveDescriptor {old new : String} (h : MayGive (r.resolveDescriptor old) new)
    (hopen : old.toList.head? ≠ some '(') : new.toList.head? ≠ some '(' := by
  obtain ⟨dimensions, element, htext, hstop⟩ := exists_eq_replicate_append '[' old.toList
  obtain rfl : old = String.ofList (List.replicate dimensions '[' ++ element) := by
    rw [← htext, String.ofList_toList]
  rw [resolveDescriptor_eq r dimensions hstop] at h
  obtain ⟨found, hfound, h⟩ := mayGive_bind h
  obtain rfl := mayGive_pure h
  cases dimensions with
  | succ more => simp [List.replicate_succ]
  | zero =>
    rcases isPlain_or_exists element with hplain | ⟨name, hne, rfl⟩
    · rw [resolveElement_of_plain r hplain] at hfound
      obtain ⟨_, -, hfound⟩ := mayGive_bind hfound
      obtain rfl := mayGive_pure hfound
      simpa using hopen
    · rw [resolveElement_of_class r hne] at hfound
      obtain ⟨_, -, hfound⟩ := mayGive_bind hfound
      obtain rfl := mayGive_pure hfound
      simp

theorem rests_resolveAnyDescriptor {old new : String} (h : MayGive (r.resolveAnyDescriptor old) new) :
    r.Rests (r.resolveAnyDescriptor new) new := by
  unfold resolveAnyDescriptor at h ⊢
  split at h
  · rw [if_pos (head?_of_resolveMethodDescriptor hmode h)]
    exact rests_resolveMethodDescriptor hplain h
  · rename_i hopen
    rw [if_neg (head?_of_resolveDescriptor h hopen)]
    exact rests_resolveDescriptor hplain h

end ClassSandbox.Resolver
