import ClassSandbox.Proofs.Resolution.Elements
import ClassSandbox.Proofs.Resolution.Refusal
import ClassSandbox.Proofs.Resolution.Stability
import ClassSandbox.Proofs.Simulation

/-!
# How resolution fails

Apart from reports, each operation computes a value from its text, and the one thing that may keep it from giving this
value is the refusal of a name in strict mode (`Resolver.unlessRefused`). Therefore nothing fails in lazy mode, and all
faults are violations by the sandbox in question (`Resolver.FailsByViolation`).

The operation on methods makes room for one more fault, a valid name that turns into one that is not. As valid names
stay valid, it makes no difference what is done about it (`Resolver.resolveMethodDescriptorOr`).
-/

namespace ClassSandbox.Resolver

variable (r : Resolver)

/-! ## Faults -/

/-- In lazy mode an operation gives some value, and in strict mode it fails in no other way than by refusing a name. -/
structure FailsByViolation {α : Type} (x : Resolution α) : Prop where
  lazy : r.settings.mode = .lazy → ∀ findings, ∃ value, (outcome x findings).1 = .ok value
  strict : r.settings.mode = .strict → ∀ findings fault, (outcome x findings).1 = .error fault →
    ∃ name, fault = .violation ⟨name, r.sandbox.text⟩

/-- An operation gives this value, whatever was found before, unless it refuses a name in strict mode. -/
def unlessRefused : Simulation Resolution Id where
  Rel x value := ∀ findings, (outcome x findings).1 = .ok value ∨
    r.settings.mode = .strict ∧ ∃ name, (outcome x findings).1 = .error (.violation ⟨name, r.sandbox.text⟩)
  pure _ := fun _ => .inl rfl
  bind := by
    intro α β x value f g hx hf findings
    have hfirst := hx findings
    rw [outcome_bind]
    generalize outcome x findings = run at hfirst
    obtain ⟨result, after⟩ := run
    rcases hfirst with hvalue | ⟨hstrict, name, hrefused⟩
    · obtain rfl : result = .ok value := hvalue
      exact hf value after
    · obtain rfl : result = .error (.violation ⟨name, r.sandbox.text⟩) := hrefused
      exact .inr ⟨hstrict, name, rfl⟩

section

variable {r} {α : Type} {x : Resolution α} {value : α}

theorem failsByViolation_of_unlessRefused (h : r.unlessRefused.Rel x (pure value)) : r.FailsByViolation x where
  lazy hlazy findings := by
    rcases h findings with hvalue | ⟨hstrict, -⟩
    · exact ⟨value, hvalue⟩
    · cases hlazy.symm.trans hstrict
  strict _ findings fault hfault := by
    rcases h findings with hvalue | ⟨-, name, hrefused⟩
    · cases hfault.symm.trans hvalue
    · exact ⟨name, Except.error.inj (hfault.symm.trans hrefused)⟩

theorem eq_of_unlessRefused (h : r.unlessRefused.Rel x (pure value)) {a : α} (ha : MayGive x a) : a = value := by
  obtain ⟨before, after, hrun⟩ := ha
  rcases h before with hvalue | ⟨-, name, hrefused⟩
  · rw [hrun] at hvalue
    exact Except.ok.inj hvalue
  · rw [hrun] at hrefused
    cases hrefused

end

/-! ## Classes and descriptors -/

theorem unlessRefused_refuse (name : String) : r.unlessRefused.Rel (r.refuse name) (pure ()) := by
  intro findings
  cases hmode : r.settings.mode with
  | strict =>
    rw [outcome_refuse_strict r hmode]
    exact .inr ⟨rfl, name, rfl⟩
  | lazy =>
    rw [outcome_refuse_lazy r hmode]
    exact .inl rfl

theorem unlessRefused_report (diagnostic : Diagnostic) : r.unlessRefused.Rel (r.report diagnostic) (pure ()) := by
  intro findings
  rw [outcome_report]
  exact .inl rfl

theorem unlessRefused_resolveClass (name : String) :
    r.unlessRefused.Rel (r.resolveClass name) (pure (r.verdict name).resolved) := by
  have hblame (offender? : Option String) : r.unlessRefused.Rel (r.blame offender?) (pure ()) := by
    cases offender? with
    | none => exact r.unlessRefused.pure ()
    | some offender => exact r.unlessRefused_refuse offender
  have hmove (old new : String) : r.unlessRefused.Rel (r.reportMove old new) (pure ()) := by
    unfold reportMove
    split
    · exact r.unlessRefused_report _
    · exact r.unlessRefused.pure ()
  rw [resolveClass_eq]
  exact r.unlessRefused.bind (hblame _) fun _ => r.unlessRefused.bind (hmove _ _) fun _ => r.unlessRefused.pure _

theorem exists_unlessRefused_resolveElement (text : List Char) :
    ∃ value, r.unlessRefused.Rel (r.resolveElement text) (pure value) := by
  rcases isPlain_or_exists text with hplain | ⟨name, hne, rfl⟩
  · have hreport : r.unlessRefused.Rel (r.reportElement text) (pure ()) := by
      unfold reportElement
      split
      · exact r.unlessRefused.pure ()
      · exact r.unlessRefused_report _
    rw [resolveElement_of_plain r hplain]
    exact ⟨String.ofList text, r.unlessRefused.bind hreport fun _ => r.unlessRefused.pure _⟩
  · rw [resolveElement_of_class r hne]
    exact ⟨_, r.unlessRefused.bind (r.unlessRefused_resolveClass name) fun _ => r.unlessRefused.pure _⟩

theorem failsByViolation_resolveDescriptor (descriptor : String) :
    r.FailsByViolation (r.resolveDescriptor descriptor) := by
  obtain ⟨value, hvalue⟩ := r.exists_unlessRefused_resolveElement (descriptor.toList.dropWhile (· == '['))
  exact failsByViolation_of_unlessRefused (r.unlessRefused.bind hvalue fun _ => r.unlessRefused.pure _)

/-! ## Methods -/

/-- A class name in a method descriptor, with something to do if it turns into one that is malformed. -/
def resolveNameOr (onMalformed : NameFault → Resolution BinaryName) (name : BinaryName) : Resolution BinaryName := do
  match BinaryName.ofString (← r.resolveClass name.text) with
  | .ok name => return name
  | .error fault => onMalformed fault

/-- Resolves a method descriptor, with something to do about classes whose new names are malformed. -/
def resolveMethodDescriptorOr (onMalformed : NameFault → Resolution BinaryName) (descriptor : String) :
    Resolution String := do
  match parseAll MethodDescriptor.read descriptor with
  | .error _ =>
    r.refuse descriptor
    return descriptor
  | .ok parsed =>
    let resolved ← parsed.mapClass (r.resolveNameOr onMalformed)
    return String.ofList resolved.render

/-- What a valid name turns into. -/
def resolvedName (name : BinaryName) : BinaryName := ⟨(r.verdict name.text).resolved, isValid_resolved name.valid⟩

theorem resolveNameOr_eq (onMalformed : NameFault → Resolution BinaryName) (name : BinaryName) :
    r.resolveNameOr onMalformed name = do
      let _ ← r.resolveClass name.text
      return r.resolvedName name := by
  have hvalid : BinaryName.ofString (r.verdict name.text).resolved = .ok (r.resolvedName name) :=
    BinaryName.ofString_text (r.resolvedName name)
  rw [resolveNameOr, resolveClass_eq]
  simp [hvalid]

theorem resolveMethodDescriptorOr_eq (onMalformed : NameFault → Resolution BinaryName) (descriptor : String) :
    r.resolveMethodDescriptorOr onMalformed descriptor = r.resolveMethodDescriptor descriptor := by
  have hsame : r.resolveNameOr onMalformed = r.resolveNameOr fun fault => throw (.malformedName fault) :=
    funext fun name => by rw [resolveNameOr_eq, resolveNameOr_eq]
  rw [resolveMethodDescriptorOr, hsame]
  rfl

theorem unlessRefused_resolveMethodDescriptor {descriptor : String} {parsed : MethodDescriptor BinaryName}
    (h : parseAll MethodDescriptor.read descriptor = .ok parsed) :
    r.unlessRefused.Rel (r.resolveMethodDescriptor descriptor)
      (pure (String.ofList (parsed.mapClass (m := Id) r.resolvedName).render)) := by
  have hname (name : BinaryName) : r.unlessRefused.Rel (r.resolveName name) (pure (r.resolvedName name)) := by
    change r.unlessRefused.Rel (r.resolveNameOr (fun fault => throw (.malformedName fault)) name) _
    rw [resolveNameOr_eq]
    exact r.unlessRefused.bind (r.unlessRefused_resolveClass _) fun _ => r.unlessRefused.pure _
  rw [MethodDescriptor.parseAll_read_iff.1 h, resolveMethodDescriptor_eq]
  exact r.unlessRefused.bind (r.unlessRefused.methodDescriptor_mapClass hname parsed) fun _ => r.unlessRefused.pure _

theorem failsByViolation_resolveMethodDescriptor (descriptor : String) :
    r.FailsByViolation (r.resolveMethodDescriptor descriptor) := by
  cases hparsed : parseAll MethodDescriptor.read descriptor with
  | error fault =>
    rw [resolveMethodDescriptor_of_error r hparsed]
    exact failsByViolation_of_unlessRefused
      (r.unlessRefused.bind (r.unlessRefused_refuse _) fun _ => r.unlessRefused.pure descriptor)
  | ok parsed => exact failsByViolation_of_unlessRefused (r.unlessRefused_resolveMethodDescriptor hparsed)

/-! ## Signatures -/

theorem failsByViolation_resolveWith {α : Type} (parser : Parser α) (render : α → List Char)
    {mapNames : (String → Resolution String) → α → Resolution α} {renamed : α → α}
    (hmap : ∀ tree, r.unlessRefused.Rel (mapNames r.resolveClass tree) (pure (renamed tree)))
    (signature? : Option String) : r.FailsByViolation (r.resolveWith parser render mapNames signature?) := by
  unfold resolveWith
  split
  · exact failsByViolation_of_unlessRefused (r.unlessRefused.pure none)
  · split
    · exact failsByViolation_of_unlessRefused
        (r.unlessRefused.bind (r.unlessRefused_refuse _) fun _ => r.unlessRefused.pure none)
    · exact failsByViolation_of_unlessRefused
        (r.unlessRefused.bind (hmap _) fun _ => r.unlessRefused.pure _)

/-- All operations fail by violations only. A valid name stays valid, so what is done about other names is never done,
and the descriptor of a method turns into one in which every class has its new name. -/
theorem resolution_failsByViolation :
    ((∀ name, r.FailsByViolation (r.resolveClass name)) ∧
      (∀ descriptor, r.FailsByViolation (r.resolveDescriptor descriptor)) ∧
      (∀ descriptor, r.FailsByViolation (r.resolveMethodDescriptor descriptor)) ∧
      (∀ signature?, r.FailsByViolation (r.resolveSignature signature?)) ∧
      ∀ signature?, r.FailsByViolation (r.resolveFieldSignature signature?)) ∧
    (∀ name resolved, BinaryName.IsValid name → MayGive (r.resolveClass name) resolved →
      BinaryName.IsValid resolved) ∧
    (∀ onMalformed descriptor,
      r.resolveMethodDescriptorOr onMalformed descriptor = r.resolveMethodDescriptor descriptor) ∧
    ∀ descriptor parsed resolved, parseAll MethodDescriptor.read descriptor = .ok parsed →
      MayGive (r.resolveMethodDescriptor descriptor) resolved →
        parseAll MethodDescriptor.read resolved = .ok (parsed.mapClass (m := Id) r.resolvedName) := by
  refine ⟨⟨fun name => failsByViolation_of_unlessRefused (r.unlessRefused_resolveClass name),
    r.failsByViolation_resolveDescriptor, r.failsByViolation_resolveMethodDescriptor,
    r.failsByViolation_resolveWith _ _ (r.unlessRefused.genericSignature_mapNames r.unlessRefused_resolveClass),
    r.failsByViolation_resolveWith _ _ (r.unlessRefused.referenceSignature_mapNames r.unlessRefused_resolveClass)⟩,
    fun name resolved hvalid h => ?_, r.resolveMethodDescriptorOr_eq, fun descriptor parsed resolved hparsed h => ?_⟩
  · rw [eq_of_unlessRefused (r.unlessRefused_resolveClass name) h]
    exact isValid_resolved hvalid
  · rw [eq_of_unlessRefused (r.unlessRefused_resolveMethodDescriptor hparsed) h]
    exact MethodDescriptor.parseAll_read_iff.2 rfl

private def lazyResolver : Resolver :=
  { exampleResolver true with settings := { Settings.standard with mode := .lazy } }

/-- In lazy mode a class that the sandbox may not use gets a valid name, too, which fits into a descriptor. -/
theorem resolution_failsByViolation_lazy :
    (∃ resolved, (outcome (lazyResolver.resolveClass "java/lang/System") .none).1 = .ok resolved ∧
      BinaryName.IsValid resolved) ∧
    ∃ resolved parsed,
      (outcome (lazyResolver.resolveMethodDescriptor "(Ljava/lang/System;)V") .none).1 = .ok resolved ∧
        parseAll MethodDescriptor.read resolved = .ok parsed := by
  obtain ⟨⟨hclass, -, hmethod, -, -⟩, hvalid, -, hparses⟩ := resolution_failsByViolation lazyResolver
  obtain ⟨name, hname⟩ := (hclass "java/lang/System").lazy rfl .none
  obtain ⟨descriptor, hdescriptor⟩ := (hmethod "(Ljava/lang/System;)V").lazy rfl .none
  have hread : parseAll MethodDescriptor.read "(Ljava/lang/System;)V" =
      .ok ⟨[.ref (.object ⟨"java/lang/System", by decide⟩)], none⟩ := MethodDescriptor.parseAll_read_iff.2 rfl
  exact ⟨⟨name, hname, hvalid _ _ (by decide) ⟨.none, _, Prod.ext hname rfl⟩⟩,
    descriptor, _, hdescriptor, hparses _ _ _ hread ⟨.none, _, Prod.ext hdescriptor rfl⟩⟩

end ClassSandbox.Resolver
