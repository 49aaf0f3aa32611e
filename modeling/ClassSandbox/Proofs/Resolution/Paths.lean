import ClassSandbox.Proofs.Descriptor
import ClassSandbox.Proofs.Resolution.Faults

/-!
# The ways to resolve a type

A type may stand in the descriptor of a field, in the descriptor of a method, or as the class of a constant. A
method descriptor is resolved like its types one after another, to the last diagnostic
(`resolveMethodDescriptor_methodText`). An array class is resolved like the descriptor of the array, except that a
move is reported with other names, so only the diagnostics differ (`answers_resolveClass_array`).

Whatever fails on the way fails because a name is refused (`OnlyRefuses`): the names in a descriptor are valid, and
they stay so.
-/

namespace ClassSandbox

/-! ## Texts of types -/

/-- A type as descriptors write it. -/
def FieldType.text {C : Type} [ClassText C] (type : FieldType C) : String := String.ofList type.render

theorem FieldType.text_object (name : BinaryName) : text (.ref (.object name)) = objectArray 0 name.text := rfl

theorem FieldType.text_objectArray (extraDims : Nat) (name : BinaryName) :
    text (.ref (.objectArray extraDims name)) = objectArray (extraDims + 1) name.text := by
  simp [text, render, RefType.render, renderClass, objectArray, ClassText.text]

/-- The descriptor of a method with these types, which are written out. -/
def methodText (parameters : List String) (result : String) : String :=
  "(" ++ String.join parameters ++ ")" ++ result

theorem MethodDescriptor.ofList_render {C : Type} [ClassText C] (descriptor : MethodDescriptor C) :
    String.ofList descriptor.render =
      methodText (descriptor.parameters.map FieldType.text) (descriptor.result.elim "V" FieldType.text) := by
  obtain ⟨parameters, result⟩ := descriptor
  rw [← String.toList_inj]
  have hparameters : (String.join (parameters.map FieldType.text)).toList =
      parameters.flatMap FieldType.render := by
    simp [List.flatMap_map, FieldType.text]
  cases result <;> simp [methodText, render, hparameters, FieldType.text]

/-! ## The same answers -/

/-- The same value or the same fault and the same violations, from findings with the same violations. -/
def answers : Simulation Resolution Resolution where
  Rel x y := ∀ before before', before.violations = before'.violations →
    (outcome x before).1 = (outcome y before').1 ∧
      (outcome x before).2.violations = (outcome y before').2.violations
  pure _ := fun _ _ hsame => ⟨rfl, hsame⟩
  bind := by
    intro α β x y f g hxy hfg
    exact (Simulation.through Findings.violations).bind hxy hfg

namespace Resolver

variable (r : Resolver)

theorem answers_refuse (name : String) : answers.Rel (r.refuse name) (r.refuse name) := by
  intro before before' hsame
  cases hmode : r.settings.mode with
  | strict => simp [outcome_refuse_strict r hmode, hsame]
  | lazy =>
    rw [outcome_refuse_lazy r hmode, outcome_refuse_lazy r hmode]
    exact ⟨rfl, by simp [Findings.note, hsame, apply_ite Findings.violations]⟩

theorem answers_blame (offender? : Option String) : answers.Rel (r.blame offender?) (r.blame offender?) := by
  cases offender? with
  | none => exact answers.pure _
  | some offender => exact r.answers_refuse offender

/-- What a move is reported with does not matter. -/
theorem answers_reportMove (old new old' new' : String) :
    answers.Rel (r.reportMove old new) (r.reportMove old' new') := by
  intro before before' hsame
  rw [outcome_reportMove, outcome_reportMove]
  refine ⟨rfl, ?_⟩
  rw [apply_ite Findings.violations, apply_ite Findings.violations, violations_reported, violations_reported,
    ite_self, ite_self, hsame]

/-! ## Refusals -/

/-- An action fails in no other way than by refusing a name, which it does in strict mode only. -/
def OnlyRefuses {α : Type} (x : Resolution α) : Prop :=
  ∀ findings fault, (outcome x findings).1 = .error fault →
    r.settings.mode = .strict ∧ ∃ name, fault = .violation ⟨name, r.sandbox.text⟩

variable {r} {α β : Type}

theorem onlyRefuses_pure (a : α) : r.OnlyRefuses (pure a) := fun _ _ h => nomatch h

theorem OnlyRefuses.bind {x : Resolution α} {next : α → Resolution β} (hx : r.OnlyRefuses x)
    (hnext : ∀ a, r.OnlyRefuses (next a)) : r.OnlyRefuses (x >>= next) := by
  intro findings fault h
  rw [outcome_bind] at h
  rcases hrun : outcome x findings with ⟨fault' | a, after⟩ <;> rw [hrun] at h
  · cases h
    exact hx findings fault (by rw [hrun])
  · exact hnext a after fault h

theorem OnlyRefuses.mapM {f : α → Resolution β} (hf : ∀ a, r.OnlyRefuses (f a)) (items : List α) :
    r.OnlyRefuses (items.mapM f) := by
  induction items with
  | nil => exact onlyRefuses_pure []
  | cons a items ih =>
    rw [List.mapM_cons]
    exact (hf a).bind fun _ => ih.bind fun _ => onlyRefuses_pure _

theorem FailsByViolation.onlyRefuses {x : Resolution α} (h : r.FailsByViolation x) : r.OnlyRefuses x := by
  intro findings fault hfault
  cases hmode : r.settings.mode with
  | strict => exact ⟨rfl, h.strict hmode findings fault hfault⟩
  | lazy =>
    obtain ⟨value, hvalue⟩ := h.lazy hmode findings
    cases hfault.symm.trans hvalue

variable (r)

theorem onlyRefuses_resolveDescriptor (descriptor : String) : r.OnlyRefuses (r.resolveDescriptor descriptor) :=
  (r.failsByViolation_resolveDescriptor descriptor).onlyRefuses

/-! ## Types -/

/-- There is nothing to resolve in a base type, nor in an array of them. -/
theorem resolveDescriptor_base (dimensions : Nat) (type : BaseType) :
    r.resolveDescriptor (String.ofList (List.replicate dimensions '[' ++ [type.letter])) =
      pure (String.ofList (List.replicate dimensions '[' ++ [type.letter])) := by
  have hstop : [type.letter].head? ≠ some '[' := by cases type <;> decide
  have hplain : IsPlain [type.letter] := by cases type <;> exact fun _ h => nomatch h
  have hknown : isPlainType [type.letter] = true := by cases type <;> rfl
  rw [resolveDescriptor_eq r dimensions hstop, resolveElement_of_plain r hplain, reportElement, if_pos hknown]
  simp

/-- A valid name in a descriptor stays one, so that it fares there like any class name. -/
theorem text_resolveName (name : BinaryName) :
    BinaryName.text <$> r.resolveName name = r.resolveClass name.text := by
  have hname : BinaryName.ofString (r.verdict name.text).resolved =
      .ok ⟨(r.verdict name.text).resolved, isValid_resolved name.valid⟩ := BinaryName.ofString_text ⟨_, _⟩
  rw [resolveName, resolveClass_eq]
  simp [hname]

theorem text_mapClass_resolveName (type : FieldType BinaryName) :
    FieldType.text <$> type.mapClass r.resolveName = r.resolveDescriptor type.text := by
  cases type with
  | base type =>
    have hbase := r.resolveDescriptor_base 0 type
    exact (map_pure _ _).trans hbase.symm
  | ref type =>
    cases type with
    | object name =>
      have hclass := r.resolveDescriptor_objectArray 0 (BinaryName.ne_empty name.valid)
      rw [← text_resolveName] at hclass
      rw [FieldType.text_object, hclass]
      simp [FieldType.mapClass, RefType.mapClass, FieldType.text_object]
    | objectArray extraDims name =>
      have hclass := r.resolveDescriptor_objectArray (extraDims + 1) (BinaryName.ne_empty name.valid)
      rw [← text_resolveName] at hclass
      rw [FieldType.text_objectArray, hclass]
      simp [FieldType.mapClass, RefType.mapClass, FieldType.text_objectArray]
    | baseArray extraDims element =>
      have hbase := r.resolveDescriptor_base (extraDims + 1) element
      exact (map_pure _ _).trans hbase.symm

/-! ## Methods -/

/-- Resolves the types of a method one after another. -/
def resolveParts (parameters : List String) (result : String) : Resolution String := do
  let newParameters ← parameters.mapM r.resolveDescriptor
  let newResult ← r.resolveDescriptor result
  return methodText newParameters newResult

theorem onlyRefuses_resolveParts (parameters : List String) (result : String) :
    r.OnlyRefuses (r.resolveParts parameters result) :=
  (OnlyRefuses.mapM r.onlyRefuses_resolveDescriptor parameters).bind fun _ =>
    (r.onlyRefuses_resolveDescriptor result).bind fun _ => onlyRefuses_pure _

theorem text_mapM_resolveName (types : List (FieldType BinaryName)) :
    List.map FieldType.text <$> (types.mapM fun type => type.mapClass r.resolveName) =
      (types.map FieldType.text).mapM r.resolveDescriptor := by
  induction types with
  | nil => rfl
  | cons type types ih =>
    rw [List.mapM_cons, List.map_cons, List.mapM_cons, ← ih, ← text_mapClass_resolveName]
    simp

theorem text_resultMapM_resolveName (result : Option (FieldType BinaryName)) :
    (fun type? => type?.elim "V" FieldType.text) <$> (result.mapM fun type => type.mapClass r.resolveName) =
      r.resolveDescriptor (result.elim "V" FieldType.text) := by
  cases result with
  | none => rfl
  | some type =>
    rw [Option.elim_some, ← text_mapClass_resolveName, Option.mapM_some]
    simp

theorem resolveMethodDescriptor_methodText (parameters : List (FieldType BinaryName))
    (result : Option (FieldType BinaryName)) :
    r.resolveMethodDescriptor (methodText (parameters.map FieldType.text) (result.elim "V" FieldType.text)) =
      r.resolveParts (parameters.map FieldType.text) (result.elim "V" FieldType.text) := by
  have htext := MethodDescriptor.ofList_render ⟨parameters, result⟩
  rw [← htext, resolveMethodDescriptor_eq, resolveParts, ← text_mapM_resolveName, ← text_resultMapM_resolveName]
  simp [MethodDescriptor.mapClass, MethodDescriptor.ofList_render]

/-! ## Arrays -/

theorem answers_resolveClass_objectArray (extraDims : Nat) (name : BinaryName) :
    answers.Rel (r.resolveClass (objectArray (extraDims + 1) name.text))
      (r.resolveDescriptor (objectArray (extraDims + 1) name.text)) := by
  have hdescriptor : r.resolveDescriptor (objectArray (extraDims + 1) name.text) = do
      r.blame (r.verdict name.text).offender?
      r.reportMove name.text (r.verdict name.text).resolved
      return objectArray (extraDims + 1) (r.verdict name.text).resolved := by
    rw [resolveDescriptor_objectArray r _ (BinaryName.ne_empty name.valid), resolveClass_eq]
    simp
  rw [hdescriptor, resolveClass_eq, verdict_objectArray]
  exact answers.bind (r.answers_blame _) fun _ =>
    answers.bind (r.answers_reportMove _ _ _ _) fun _ => answers.pure _

theorem answers_resolveClass_baseArray {array : String} (extraDims : Nat) (type : BaseType)
    (harray : array = String.ofList (List.replicate (extraDims + 1) '[' ++ [type.letter])) :
    answers.Rel (r.resolveClass array) (r.resolveDescriptor array) := by
  have hbracket : array.toList.head? = some '[' := by simp [harray, List.replicate_succ]
  have hplain : objectArray? array = none := by
    have hstop : [type.letter].head? ≠ some '[' := by cases type <;> decide
    obtain ⟨-, hdrop⟩ := scan_replicate_append (extraDims + 1) hstop
    rw [objectArray?, harray, String.toList_ofList, hdrop]
    cases type <;> rfl
  have hverdict : r.verdict array = ⟨array, none⟩ := by rw [verdict_eq, if_pos hbracket, hplain]
  have hdescriptor : r.resolveDescriptor array = pure array := by rw [harray, resolveDescriptor_base]
  rw [hdescriptor, resolveClass_eq, hverdict, blame, reportMove, if_neg (not_not_intro rfl)]
  exact answers.pure _

theorem answers_resolveClass_array (element : FieldType BinaryName) :
    answers.Rel (r.resolveClass element.array.text) (r.resolveDescriptor element.array.text) := by
  rcases element with type | (name | ⟨extraDims, name⟩ | ⟨extraDims, type⟩)
  · exact r.answers_resolveClass_baseArray 0 type rfl
  · rw [FieldType.array, FieldType.text_objectArray]
    exact r.answers_resolveClass_objectArray 0 name
  · rw [FieldType.array, FieldType.text_objectArray]
    exact r.answers_resolveClass_objectArray (extraDims + 1) name
  · exact r.answers_resolveClass_baseArray (extraDims + 1) type rfl

/-- The types of a method are resolved as if each stood alone, and an array class as if it stood in a
descriptor. -/
theorem resolutionPaths_agree :
    (∀ (parameters : List (FieldType BinaryName)) (result : Option (FieldType BinaryName)),
      r.resolveMethodDescriptor
          (methodText (parameters.map FieldType.text) (result.elim "V" FieldType.text)) =
        r.resolveParts (parameters.map FieldType.text) (result.elim "V" FieldType.text) ∧
      r.OnlyRefuses (r.resolveParts (parameters.map FieldType.text) (result.elim "V" FieldType.text))) ∧
    ∀ element : FieldType BinaryName,
      answers.Rel (r.resolveClass element.array.text) (r.resolveDescriptor element.array.text) :=
  ⟨fun parameters result => ⟨r.resolveMethodDescriptor_methodText parameters result,
    r.onlyRefuses_resolveParts _ _⟩, r.answers_resolveClass_array⟩

end Resolver

end ClassSandbox
