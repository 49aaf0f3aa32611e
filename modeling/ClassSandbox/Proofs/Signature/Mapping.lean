import ClassSandbox.Proofs.Outcome
import ClassSandbox.Proofs.Signature.Walk

/-!
# Mapping the class names of a signature

A map that refuses nothing renames a tree: the identity changes nothing, and if the first of two maps treats nested
classes like those around them, mapping with both is mapping once with their composition (`Renames`). A map that
refuses a name ends the walk there. As the walk only ever asks for the names in turn, both follow for maps that may
refuse names (`WalksNames.of_asks`).
-/

namespace ClassSandbox

/-! ## Maps that refuse nothing -/

/-- A class nested in another one is mapped to the class of that name nested in what the other one is mapped to. -/
def KeepsNesting (f : String → String) : Prop :=
  ∀ outer inner, f (nestedName outer inner) = nestedName (f outer) inner

section Total

variable {f g : String → String}

theorem classTypeSignature_mapNames (f : String → String) (name : String) (arguments : List TypeArgument)
    (projections : List SimpleClassSignature) :
    (ClassTypeSignature.mk (.mk name arguments) projections).mapNames (m := Id) f =
      .mk (.mk (f name) (mapArgumentNames (m := Id) f arguments))
        (mapProjectionNames (m := Id) f name (f name) projections) := rfl

theorem mapProjectionNames_cons (f : String → String) (outer newOuter name : String) (arguments : List TypeArgument)
    (rest : List SimpleClassSignature) :
    mapProjectionNames (m := Id) f outer newOuter (.mk name arguments :: rest) =
      .mk ((nestedName? newOuter (f (nestedName outer name))).getD name) (mapArgumentNames (m := Id) f arguments) ::
        mapProjectionNames (m := Id) f (nestedName outer name) (f (nestedName outer name)) rest := rfl

/-- With maps that refuse nothing, a walk renames the classes of a tree. -/
structure Renames {T : Type} (classNames : T → List String) (walk : T → Walk T) : Prop where
  id (tree : T) : walk tree Id (fun name => name) = tree
  names {f : String → String} (hf : KeepsNesting f) (tree : T) : classNames (walk tree Id f) = (classNames tree).map f
  comp {f : String → String} (hf : KeepsNesting f) (g : String → String) (tree : T) :
    walk (walk tree Id f) Id g = walk tree Id fun name => g (f name)

section Collections

variable {T : Type} {classNames : T → List String} {walk : T → Walk T}

theorem listMapM_total (f : String → String) (items : List T) :
    items.mapM (fun tree => walk tree Id f) = items.map fun tree => walk tree Id f :=
  List.mapM_pure

theorem Renames.listMapM (h : Renames classNames walk) :
    Renames (fun items : List T => items.flatMap classNames) fun items m _ f =>
      items.mapM fun tree => walk tree m f where
  id items := by
    rw [listMapM_total, List.map_congr_left fun tree _ => h.id tree, List.map_id']
  names hf items := by
    rw [listMapM_total, List.flatMap_map, List.map_flatMap]
    exact List.flatMap_congr fun tree _ => h.names hf tree
  comp hf g items := by
    rw [listMapM_total, listMapM_total, listMapM_total, List.map_map]
    exact List.map_congr_left fun tree _ => h.comp hf g tree

theorem Renames.optionMapM (h : Renames classNames walk) :
    Renames (fun item : Option T => item.elim [] classNames) fun item m _ f =>
      item.mapM fun tree => walk tree m f where
  id item := by
    cases item with
    | none => rfl
    | some tree => exact congrArg some (h.id tree)
  names hf item := by
    cases item with
    | none => rfl
    | some tree => exact h.names hf tree
  comp hf g item := by
    cases item with
    | none => rfl
    | some tree => exact congrArg some (h.comp hf g tree)

end Collections

/-- A projection keeps its name, so the next walk meets what `f` makes of the full name. -/
theorem projectionName_eq (hf : KeepsNesting f) (outer name : String) :
    (nestedName? (f outer) (f (nestedName outer name))).getD name = name := by
  rw [nestedName?_eq_some_iff.2 (hf outer name), Option.getD_some]

mutual

theorem typeSignature_id : (type : TypeSignature) → type.mapNames (m := Id) (fun name => name) = type
  | .base _ => rfl
  | .reference type => congrArg TypeSignature.reference (referenceSignature_id type)

theorem referenceSignature_id :
    (type : ReferenceSignature) → type.mapNames (m := Id) (fun name => name) = type
  | .object type => congrArg ReferenceSignature.object (classTypeSignature_id type)
  | .variable _ => rfl
  | .array element => congrArg ReferenceSignature.array (typeSignature_id element)

theorem classTypeSignature_id :
    (type : ClassTypeSignature) → type.mapNames (m := Id) (fun name => name) = type
  | .mk (.mk name arguments) projections => by
    rw [classTypeSignature_mapNames, arguments_id arguments, projections_id name projections]

theorem projections_id (outer : String) :
    (projections : List SimpleClassSignature) →
      mapProjectionNames (m := Id) (fun name => name) outer outer projections = projections
  | [] => rfl
  | .mk name arguments :: rest => by
    rw [mapProjectionNames_cons, arguments_id arguments, projections_id (nestedName outer name) rest,
      nestedName?_eq_some_iff.2 rfl, Option.getD_some]

theorem arguments_id :
    (arguments : List TypeArgument) → mapArgumentNames (m := Id) (fun name => name) arguments = arguments
  | [] => rfl
  | argument :: rest => congrArg₂ List.cons (typeArgument_id argument) (arguments_id rest)

theorem typeArgument_id :
    (argument : TypeArgument) → argument.mapNames (m := Id) (fun name => name) = argument
  | .wildcard => rfl
  | .type bound type => congrArg (TypeArgument.type bound) (referenceSignature_id type)

end

mutual

theorem typeSignature_comp (hf : KeepsNesting f) (g : String → String) :
    (type : TypeSignature) →
      TypeSignature.mapNames (m := Id) g (type.mapNames (m := Id) f) =
        type.mapNames (m := Id) fun name => g (f name)
  | .base _ => rfl
  | .reference type => congrArg TypeSignature.reference (referenceSignature_comp hf g type)

theorem referenceSignature_comp (hf : KeepsNesting f) (g : String → String) :
    (type : ReferenceSignature) →
      ReferenceSignature.mapNames (m := Id) g (type.mapNames (m := Id) f) =
        type.mapNames (m := Id) fun name => g (f name)
  | .object type => congrArg ReferenceSignature.object (classTypeSignature_comp hf g type)
  | .variable _ => rfl
  | .array element => congrArg ReferenceSignature.array (typeSignature_comp hf g element)

theorem classTypeSignature_comp (hf : KeepsNesting f) (g : String → String) :
    (type : ClassTypeSignature) →
      ClassTypeSignature.mapNames (m := Id) g (type.mapNames (m := Id) f) =
        type.mapNames (m := Id) fun name => g (f name)
  | .mk (.mk name arguments) projections => by
    rw [classTypeSignature_mapNames, classTypeSignature_mapNames, classTypeSignature_mapNames,
      arguments_comp hf g arguments, projections_comp hf g name projections]

theorem projections_comp (hf : KeepsNesting f) (g : String → String) (outer : String) :
    (projections : List SimpleClassSignature) →
      mapProjectionNames (m := Id) g (f outer) (g (f outer))
          (mapProjectionNames (m := Id) f outer (f outer) projections) =
        mapProjectionNames (m := Id) (fun name => g (f name)) outer (g (f outer)) projections
  | [] => rfl
  | .mk name arguments :: rest => by
    rw [mapProjectionNames_cons, mapProjectionNames_cons, mapProjectionNames_cons, projectionName_eq hf,
      ← hf outer name, arguments_comp hf g arguments, projections_comp hf g (nestedName outer name) rest]

theorem arguments_comp (hf : KeepsNesting f) (g : String → String) :
    (arguments : List TypeArgument) →
      mapArgumentNames (m := Id) g (mapArgumentNames (m := Id) f arguments) =
        mapArgumentNames (m := Id) (fun name => g (f name)) arguments
  | [] => rfl
  | argument :: rest => congrArg₂ List.cons (typeArgument_comp hf g argument) (arguments_comp hf g rest)

theorem typeArgument_comp (hf : KeepsNesting f) (g : String → String) :
    (argument : TypeArgument) →
      TypeArgument.mapNames (m := Id) g (argument.mapNames (m := Id) f) =
        argument.mapNames (m := Id) fun name => g (f name)
  | .wildcard => rfl
  | .type bound type => congrArg (TypeArgument.type bound) (referenceSignature_comp hf g type)

end

mutual

theorem typeSignature_names (hf : KeepsNesting f) :
    (type : TypeSignature) → TypeSignature.classNames (type.mapNames (m := Id) f) = type.classNames.map f
  | .base _ => rfl
  | .reference type => referenceSignature_names hf type

theorem referenceSignature_names (hf : KeepsNesting f) :
    (type : ReferenceSignature) → ReferenceSignature.classNames (type.mapNames (m := Id) f) = type.classNames.map f
  | .object type => classTypeSignature_names hf type
  | .variable _ => rfl
  | .array element => typeSignature_names hf element

theorem classTypeSignature_names (hf : KeepsNesting f) :
    (type : ClassTypeSignature) → ClassTypeSignature.classNames (type.mapNames (m := Id) f) = type.classNames.map f
  | .mk (.mk name arguments) projections => by
    rw [classTypeSignature_mapNames, ClassTypeSignature.classNames, ClassTypeSignature.classNames,
      arguments_names hf arguments, projections_names hf name projections, List.map_cons, List.map_append]

theorem projections_names (hf : KeepsNesting f) (outer : String) :
    (projections : List SimpleClassSignature) →
      classNamesOfProjections (f outer) (mapProjectionNames (m := Id) f outer (f outer) projections) =
        (classNamesOfProjections outer projections).map f
  | [] => rfl
  | .mk name arguments :: rest => by
    rw [mapProjectionNames_cons, projectionName_eq hf, classNamesOfProjections, classNamesOfProjections,
      ← hf outer name, arguments_names hf arguments, projections_names hf (nestedName outer name) rest, List.map_cons,
      List.map_append]

theorem arguments_names (hf : KeepsNesting f) :
    (arguments : List TypeArgument) →
      classNamesOfArguments (mapArgumentNames (m := Id) f arguments) = (classNamesOfArguments arguments).map f
  | [] => rfl
  | argument :: rest =>
    (congrArg₂ (· ++ ·) (typeArgument_names hf argument) (arguments_names hf rest)).trans List.map_append.symm

theorem typeArgument_names (hf : KeepsNesting f) :
    (argument : TypeArgument) → TypeArgument.classNames (argument.mapNames (m := Id) f) = argument.classNames.map f
  | .wildcard => rfl
  | .type _ type => referenceSignature_names hf type

end

end Total

theorem renames_typeSignature :
    Renames TypeSignature.classNames fun (type : TypeSignature) _ _ f => type.mapNames f :=
  ⟨typeSignature_id, typeSignature_names, typeSignature_comp⟩

theorem renames_referenceSignature :
    Renames ReferenceSignature.classNames fun (type : ReferenceSignature) _ _ f => type.mapNames f :=
  ⟨referenceSignature_id, referenceSignature_names, referenceSignature_comp⟩

theorem renames_classTypeSignature :
    Renames ClassTypeSignature.classNames fun (type : ClassTypeSignature) _ _ f => type.mapNames f :=
  ⟨classTypeSignature_id, classTypeSignature_names, classTypeSignature_comp⟩

theorem renames_typeArgument :
    Renames TypeArgument.classNames fun (argument : TypeArgument) _ _ f => argument.mapNames f :=
  ⟨typeArgument_id, typeArgument_names, typeArgument_comp⟩

theorem renames_typeParameter :
    Renames TypeParameter.classNames fun (parameter : TypeParameter) _ _ f => parameter.mapNames f where
  id parameter := congrArg₂ (TypeParameter.mk parameter.name)
    (renames_referenceSignature.optionMapM.id _) (renames_referenceSignature.listMapM.id _)
  names hf parameter := by
    have hclass := renames_referenceSignature.optionMapM.names hf parameter.classBound
    have hinterfaces := renames_referenceSignature.listMapM.names hf parameter.interfaceBounds
    exact (congrArg₂ (· ++ ·) hclass hinterfaces).trans List.map_append.symm
  comp hf g parameter := congrArg₂ (TypeParameter.mk parameter.name)
    (renames_referenceSignature.optionMapM.comp hf g _) (renames_referenceSignature.listMapM.comp hf g _)

theorem renames_classSignature :
    Renames ClassSignature.classNames fun (signature : ClassSignature) _ _ f => signature.mapNames f where
  id signature := (ClassSignature.mk.injEq ..).mpr
    ⟨renames_typeParameter.listMapM.id _, renames_classTypeSignature.id _, renames_classTypeSignature.listMapM.id _⟩
  names hf signature := by
    have hparameters := renames_typeParameter.listMapM.names hf signature.typeParameters
    have hsuperclass := renames_classTypeSignature.names hf signature.superclass
    have hsuperinterfaces := renames_classTypeSignature.listMapM.names hf signature.superinterfaces
    refine (congrArg₂ (· ++ ·) hparameters (congrArg₂ (· ++ ·) hsuperclass hsuperinterfaces)).trans ?_
    simp only [ClassSignature.classNames, List.map_append]
  comp hf g signature := (ClassSignature.mk.injEq ..).mpr
    ⟨renames_typeParameter.listMapM.comp hf g _, renames_classTypeSignature.comp hf g _,
      renames_classTypeSignature.listMapM.comp hf g _⟩

theorem renames_methodSignature :
    Renames MethodSignature.classNames fun (signature : MethodSignature) _ _ f => signature.mapNames f where
  id signature := (MethodSignature.mk.injEq ..).mpr
    ⟨renames_typeParameter.listMapM.id _, renames_typeSignature.listMapM.id _, renames_typeSignature.optionMapM.id _,
      renames_referenceSignature.listMapM.id _⟩
  names hf signature := by
    have htypeParameters := renames_typeParameter.listMapM.names hf signature.typeParameters
    have hparameters := renames_typeSignature.listMapM.names hf signature.parameters
    have hresult := renames_typeSignature.optionMapM.names hf signature.result
    have hthrows := renames_referenceSignature.listMapM.names hf signature.throws
    refine (congrArg₂ (· ++ ·) htypeParameters
      (congrArg₂ (· ++ ·) hparameters (congrArg₂ (· ++ ·) hresult hthrows))).trans ?_
    simp only [MethodSignature.classNames, List.map_append]
  comp hf g signature := (MethodSignature.mk.injEq ..).mpr
    ⟨renames_typeParameter.listMapM.comp hf g _, renames_typeSignature.listMapM.comp hf g _,
      renames_typeSignature.optionMapM.comp hf g _, renames_referenceSignature.listMapM.comp hf g _⟩

theorem renames_genericSignature :
    Renames GenericSignature.classNames fun (signature : GenericSignature) _ _ f => signature.mapNames f where
  id signature := by
    cases signature with
    | ofClass signature => exact congrArg GenericSignature.ofClass (renames_classSignature.id signature)
    | ofMethod signature => exact congrArg GenericSignature.ofMethod (renames_methodSignature.id signature)
  names hf signature := by
    cases signature with
    | ofClass signature => exact renames_classSignature.names hf signature
    | ofMethod signature => exact renames_methodSignature.names hf signature
  comp hf g signature := by
    cases signature with
    | ofClass signature => exact congrArg GenericSignature.ofClass (renames_classSignature.comp hf g signature)
    | ofMethod signature => exact congrArg GenericSignature.ofMethod (renames_methodSignature.comp hf g signature)

/-! ## Maps that may refuse a name -/

section Refusal

variable {ε : Type} {f : String → Except ε String} {names before after : List String} {name : String} {fault : ε}

/-- The map with an account of the names for which it is called. -/
def recorded (f : String → Except ε String) (name : String) : ExceptT ε (StateM (List String)) String := do
  modify (· ++ [name])
  match f name with
  | .ok new => return new
  | .error fault => throw fault

/-- The map accepts these names. -/
def Accepted (f : String → Except ε String) (names : List String) : Prop :=
  ∀ name ∈ names, ∃ new, f name = .ok new

/-- What a map makes of a name, which stays if it is refused. -/
def answer (f : String → Except ε String) (name : String) : String := (f name).toOption.getD name

/-- Nested classes are refused with the classes around them, and mapped to nested classes otherwise. -/
def NestingKept (f : String → Except ε String) : Prop :=
  ∀ outer inner, f (nestedName outer inner) = (nestedName · inner) <$> f outer

theorem NestingKept.keepsNesting (hf : NestingKept f) : KeepsNesting (answer f) := by
  intro outer inner
  rw [answer, answer, hf]
  cases f outer <;> rfl

theorem accepted_or_refused (f : String → Except ε String) (names : List String) :
    Accepted f names ∨ ∃ before name after fault, names = before ++ name :: after ∧ Accepted f before ∧
      f name = .error fault := by
  induction names with
  | nil => exact .inl nofun
  | cons first names ih =>
    cases hfirst : f first with
    | error fault => exact .inr ⟨[], first, names, fault, rfl, nofun, hfirst⟩
    | ok new =>
      rcases ih with haccepted | ⟨before, name, after, fault, rfl, haccepted, hfault⟩
      · exact .inl (List.forall_mem_cons.2 ⟨⟨new, hfirst⟩, haccepted⟩)
      · exact .inr ⟨first :: before, name, after, fault, rfl, List.forall_mem_cons.2 ⟨⟨new, hfirst⟩, haccepted⟩, hfault⟩

theorem Accepted.map (h : Accepted f names) (g : String → String) : Accepted (fun name => g <$> f name) names := by
  intro name hmem
  obtain ⟨new, hnew⟩ := h name hmem
  exact ⟨g new, congrArg (g <$> ·) hnew⟩

theorem Accepted.answer_map (h : Accepted f names) (g : String → String) :
    ∀ name ∈ names, answer (fun name => g <$> f name) name = g (answer f name) := by
  intro name hmem
  obtain ⟨new, hnew⟩ := h name hmem
  simp only [answer, hnew]
  rfl

theorem mapM_of_accepted (h : Accepted f names) : names.mapM f = .ok (names.map (answer f)) := by
  induction names with
  | nil => rfl
  | cons name names ih =>
    obtain ⟨⟨new, hnew⟩, hrest⟩ := List.forall_mem_cons.1 h
    rw [List.mapM_cons, hnew, ih hrest, List.map_cons, answer, hnew]
    rfl

theorem mapM_of_refused (h : Accepted f before) (hfault : f name = .error fault) :
    (before ++ name :: after).mapM f = .error fault := by
  rw [List.mapM_append, mapM_of_accepted h, List.mapM_cons, hfault]
  rfl

theorem outcome_recorded (f : String → Except ε String) (name : String) (seen : List String) :
    outcome (recorded f name) seen = (f name, seen ++ [name]) := by
  rw [recorded, outcome_bind, outcome_modify]
  cases hname : f name <;> rfl

theorem outcome_mapM_recorded (h : Accepted f names) (seen : List String) :
    outcome (names.mapM (recorded f)) seen = (.ok (names.map (answer f)), seen ++ names) := by
  induction names generalizing seen with
  | nil => simp [outcome_pure]
  | cons name names ih =>
    obtain ⟨⟨new, hnew⟩, hrest⟩ := List.forall_mem_cons.1 h
    rw [List.mapM_cons, outcome_bind, outcome_recorded, hnew, List.map_cons, answer, hnew]
    simp [outcome_map, ih hrest, Except.toOption]

theorem outcome_mapM_recorded_of_refused (h : Accepted f before) (hfault : f name = .error fault)
    (seen : List String) :
    outcome ((before ++ name :: after).mapM (recorded f)) seen = (.error fault, seen ++ (before ++ [name])) := by
  rw [List.mapM_append, outcome_bind, outcome_mapM_recorded h, List.mapM_cons]
  simp [outcome_bind, outcome_recorded, hfault]

end Refusal

/-! ## All signatures -/

/-- What a walk over trees does. -/
structure WalksNames {T : Type} (classNames : T → List String) (walk : T → Walk T) : Prop where
  /-- In every monad, the map is called for the names in turn, and for nothing else. -/
  asks (tree : T) : Asks (classNames tree) (walk tree)
  /-- A map that accepts all names is called for each of them. -/
  visits {ε : Type} {f : String → Except ε String} {tree : T} : Accepted f (classNames tree) →
    ∃ new, walk tree (Except ε) f = .ok new ∧ outcome (walk tree _ (recorded f)) [] = (.ok new, classNames tree)
  /-- The first name that is refused is the last one for which the map is called. -/
  stops {ε : Type} {f : String → Except ε String} {tree : T} {before after : List String} {name : String} {fault : ε} :
    classNames tree = before ++ name :: after → Accepted f before → f name = .error fault →
      walk tree (Except ε) f = .error fault ∧
        outcome (walk tree _ (recorded f)) [] = (.error fault, before ++ [name])
  unchanged (m : Type → Type) [Monad m] [LawfulMonad m] (tree : T) : walk tree m pure = pure tree
  /-- If a map treats nested classes like those around them, the new tree mentions the answers. -/
  renames {ε : Type} {f : String → Except ε String} {tree new : T} : NestingKept f → walk tree (Except ε) f = .ok new →
    (classNames tree).mapM f = .ok (classNames new)
  /-- Then a second walk may be joined to the first one, too. -/
  composes {ε : Type} {f : String → Except ε String} (g : String → String) (tree : T) : NestingKept f →
    (do walk (← walk tree (Except ε) f) (Except ε) fun name => .ok (g name)) =
      walk tree (Except ε) fun name => g <$> f name

namespace WalksNames

variable {T ε : Type} {classNames : T → List String} {walk : T → Walk T} {f : String → Except ε String}

/-- With a map that refuses nothing, the answers are what it makes of the names. -/
theorem total_eq {α : Type} {names : List String} {walk : Walk α} {build : List String → α}
    (hbuild : ∀ (m : Type → Type) [Monad m] [LawfulMonad m] (f : String → m String), walk m f = build <$> names.mapM f)
    (f : String → String) : walk Id f = build (names.map f) :=
  (hbuild Id f).trans (congrArg build List.mapM_pure)

theorem eq_ok_of_accepted {tree : T} (hasks : Asks (classNames tree) (walk tree)) (h : Accepted f (classNames tree)) :
    walk tree (Except ε) f = .ok (walk tree Id (answer f)) := by
  obtain ⟨build, hbuild⟩ := hasks
  rw [total_eq hbuild, hbuild, mapM_of_accepted h]
  rfl

theorem eq_error_of_refused {tree : T} {before after : List String} {name : String} {fault : ε}
    (hasks : Asks (classNames tree) (walk tree)) (hnames : classNames tree = before ++ name :: after)
    (h : Accepted f before) (hfault : f name = .error fault) : walk tree (Except ε) f = .error fault := by
  obtain ⟨build, hbuild⟩ := hasks
  rw [hbuild, hnames, mapM_of_refused h hfault]
  rfl

/-- A walk that asks for the names, and renames them, does all this. -/
theorem of_asks (hasks : ∀ tree, Asks (classNames tree) (walk tree)) (hrenames : Renames classNames walk) :
    WalksNames classNames walk where
  asks := hasks
  visits {ε f tree} haccepted := by
    refine ⟨_, eq_ok_of_accepted (hasks tree) haccepted, ?_⟩
    obtain ⟨build, hbuild⟩ := hasks tree
    rw [total_eq hbuild, hbuild, outcome_map, outcome_mapM_recorded haccepted]
    rfl
  stops {ε f tree before after name fault} hnames haccepted hfault := by
    refine ⟨eq_error_of_refused (hasks tree) hnames haccepted hfault, ?_⟩
    obtain ⟨build, hbuild⟩ := hasks tree
    rw [hbuild, hnames, outcome_map, outcome_mapM_recorded_of_refused haccepted hfault]
    rfl
  unchanged m _ _ tree := by
    obtain ⟨build, hbuild⟩ := hasks tree
    have hsame : build (classNames tree) = tree := by
      have hid := hrenames.id tree
      rwa [total_eq hbuild, List.map_id'] at hid
    rw [hbuild, List.mapM_pure, List.map_id', map_pure, hsame]
  renames {ε f tree new} hf hnew := by
    rcases accepted_or_refused f (classNames tree) with
      haccepted | ⟨before, name, after, fault, hnames, haccepted, hfault⟩
    · rw [eq_ok_of_accepted (hasks tree) haccepted] at hnew
      cases hnew
      rw [mapM_of_accepted haccepted, hrenames.names hf.keepsNesting]
    · rw [eq_error_of_refused (hasks tree) hnames haccepted hfault] at hnew
      cases hnew
  composes {ε f} g tree hf := by
    rcases accepted_or_refused f (classNames tree) with
      haccepted | ⟨before, name, after, fault, hnames, haccepted, hfault⟩
    · have hsecond : walk (walk tree Id (answer f)) (Except ε) (fun name => .ok (g name)) =
          .ok (walk (walk tree Id (answer f)) Id g) := eq_ok_of_accepted (hasks _) fun name _ => ⟨g name, rfl⟩
      rw [eq_ok_of_accepted (hasks tree) haccepted, eq_ok_of_accepted (hasks tree) (haccepted.map g)]
      refine hsecond.trans (congrArg Except.ok ?_)
      obtain ⟨build, hbuild⟩ := hasks tree
      rw [hrenames.comp (hf.keepsNesting), total_eq hbuild, total_eq hbuild,
        List.map_congr_left (haccepted.answer_map g)]
    · have hrefused : g <$> f name = .error fault := by rw [hfault]; rfl
      rw [eq_error_of_refused (hasks tree) hnames haccepted hfault,
        eq_error_of_refused (hasks tree) hnames (haccepted.map g) hrefused]
      rfl

end WalksNames

/-- Every kind of signature is walked in textual order, name by name. -/
theorem signatures_walkNames :
    WalksNames TypeSignature.classNames (fun type _ _ f => type.mapNames f) ∧
      WalksNames ReferenceSignature.classNames (fun type _ _ f => type.mapNames f) ∧
      WalksNames ClassTypeSignature.classNames (fun type _ _ f => type.mapNames f) ∧
      WalksNames TypeArgument.classNames (fun argument _ _ f => argument.mapNames f) ∧
      WalksNames TypeParameter.classNames (fun parameter _ _ f => parameter.mapNames f) ∧
      WalksNames ClassSignature.classNames (fun signature _ _ f => signature.mapNames f) ∧
      WalksNames MethodSignature.classNames (fun signature _ _ f => signature.mapNames f) ∧
      WalksNames GenericSignature.classNames (fun signature _ _ f => signature.mapNames f) :=
  ⟨.of_asks asks_typeSignature renames_typeSignature, .of_asks asks_referenceSignature renames_referenceSignature,
    .of_asks asks_classTypeSignature renames_classTypeSignature, .of_asks asks_typeArgument renames_typeArgument,
    .of_asks asks_typeParameter renames_typeParameter, .of_asks asks_classSignature renames_classSignature,
    .of_asks asks_methodSignature renames_methodSignature, .of_asks asks_genericSignature renames_genericSignature⟩

section

/-- `Ljava/util/Map<TT;Ljava/util/Map$Entry;>.Entry<TT;*>;` -/
private def mapEntry : ReferenceSignature :=
  .object (.mk
    (.mk "java/util/Map" [.type none (.variable "T"), .type none (.object (.mk (.mk "java/util/Map$Entry" []) []))])
    [.mk "Entry" [.type none (.variable "T"), .wildcard]])

private def moved (name : String) : Except String String := .ok ("x/" ++ name)

private def keptUnlessEntry (name : String) : Except String String :=
  if name = "java/util/Map$Entry" then .error name else .ok name

private theorem nestingKept_moved : NestingKept moved := by
  intro outer inner
  simp only [moved, nestedName, ← String.append_assoc]
  rfl

/-- The full name of the projection is met after the arguments of the class around it, and refusing its first mention
leaves out the second one. Its second mention gives back `Entry` when both names are moved. -/
theorem signatures_walkNames_mapEntry :
    ((∃ new, mapEntry.mapNames moved = .ok new ∧
        outcome (mapEntry.mapNames (recorded moved)) [] =
          (.ok new, ["java/util/Map", "java/util/Map$Entry", "java/util/Map$Entry"]) ∧
        new.classNames = ["x/java/util/Map", "x/java/util/Map$Entry", "x/java/util/Map$Entry"]) ∧
      mapEntry.mapNames keptUnlessEntry = .error "java/util/Map$Entry" ∧
      outcome (mapEntry.mapNames (recorded keptUnlessEntry)) [] =
        (.error "java/util/Map$Entry", ["java/util/Map", "java/util/Map$Entry"])) ∧
    (do ReferenceSignature.mapNames (fun name => .ok ("y/" ++ name)) (← mapEntry.mapNames moved)) =
      mapEntry.mapNames fun name => ("y/" ++ ·) <$> moved name := by
  have hwalk := signatures_walkNames.2.1
  have haccepted : Accepted moved mapEntry.classNames := fun name _ => ⟨"x/" ++ name, rfl⟩
  obtain ⟨new, hnew, hseen⟩ := hwalk.visits haccepted
  refine ⟨⟨⟨new, hnew, hseen, ?_⟩, ?_⟩, hwalk.composes ("y/" ++ ·) mapEntry nestingKept_moved⟩
  · exact (Except.ok.inj (hwalk.renames nestingKept_moved hnew)).symm
  · have hnames : mapEntry.classNames = ["java/util/Map"] ++ "java/util/Map$Entry" :: ["java/util/Map$Entry"] := rfl
    exact hwalk.stops hnames (List.forall_mem_singleton.2 ⟨"java/util/Map", if_neg (by decide)⟩) (if_pos rfl)

end

end ClassSandbox
