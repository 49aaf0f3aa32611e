import ClassSandbox.Proofs.Descriptor.RoundTrip
import ClassSandbox.Proofs.Resolution.Elements
import ClassSandbox.Proofs.Resolution.Refusal
import ClassSandbox.Proofs.Resolution.Stability

/-!
# Idempotence

To resolve a name or a descriptor once more changes nothing (`resolution_idempotent`): the result is the same,
and the violations are those that were noted before.

`Repeats` says this of two resolutions, the second of which takes the result of the first. It is handed up from
names to whatever mentions them by `Repeats.map` and `Repeats.map₂`, so that each family of types needs no more
than one line for each of its forms.
-/

namespace ClassSandbox

namespace Findings

variable {findings : Findings} {violation : Violation}

theorem note_of_mem (h : violation ∈ findings.violations) : findings.note violation = findings :=
  if_pos (Array.contains_iff_mem.2 h)

theorem mem_violations_note_of_mem (h : violation ∈ findings.violations) (other : Violation) :
    violation ∈ (findings.note other).violations := by
  unfold note
  split
  · exact h
  · exact Array.mem_push_of_mem other h

end Findings

/-! ## Quiet resolutions -/

section Quiet

variable {α β : Type} {x : Resolution α} {next : α → Resolution β} {findings : Findings} {a : α} {b : β}

/-- The resolution gives a value and finds no new violation. -/
def Quiet (x : Resolution α) (findings : Findings) (a : α) : Prop :=
  ∃ last, outcome x findings = (.ok a, last) ∧ last.violations = findings.violations

theorem quiet_pure : Quiet (pure a) findings a := ⟨findings, rfl, rfl⟩

theorem Quiet.bind (hx : Quiet x findings a)
    (hnext : ∀ middle : Findings, middle.violations = findings.violations → Quiet (next a) middle b) :
    Quiet (x >>= next) findings b := by
  obtain ⟨middle, hx, hmiddle⟩ := hx
  obtain ⟨last, hlast, hsame⟩ := hnext middle hmiddle
  exact ⟨last, outcome_bind_eq_ok_iff.2 ⟨a, middle, hx, hlast⟩, hsame.trans hmiddle⟩

end Quiet

/-! ## Repeated resolutions -/

/-- What the first resolution gives, the second one gives once more, quietly, at any time after it. -/
structure Repeats {α : Type} (x : Resolution α) (again : α → Resolution α) : Prop where
  keeps (violation : Violation) : Keeps x fun findings => violation ∈ findings.violations
  quiet {before after : Findings} {a : α} (h : outcome x before = (.ok a, after)) {findings : Findings}
    (hmore : ∀ violation ∈ after.violations, violation ∈ findings.violations) : Quiet (again a) findings a

section Repeats

variable {α β γ : Type} {x : Resolution α} {again : α → Resolution α} {y : Resolution β}
  {againY : β → Resolution β}

theorem repeats_pure {a : α} (hagain : again a = pure a) : Repeats (pure a) again where
  keeps _ := keeps_pure a
  quiet h _ _ := by
    cases h
    rw [hagain]
    exact quiet_pure

/-- A constructor around the value. -/
theorem Repeats.map (hx : Repeats x again) {f : α → β} {againMap : β → Resolution β}
    (hagain : ∀ a, MayGive x a → againMap (f a) = do return f (← again a)) :
    Repeats (do return f (← x)) againMap where
  keeps violation := (hx.keeps violation).bind fun _ => keeps_pure _
  quiet h _ hmore := by
    obtain ⟨a, middle, hfirst, h⟩ := outcome_bind_eq_ok_iff.1 h
    cases h
    rw [hagain a ⟨_, _, hfirst⟩]
    exact (hx.quiet hfirst hmore).bind fun _ _ => quiet_pure

/-- A constructor around two values. -/
theorem Repeats.map₂ (hx : Repeats x again) (hy : Repeats y againY) {f : α → β → γ}
    {againMap : γ → Resolution γ}
    (hagain : ∀ a b, againMap (f a b) = do
      let a ← again a
      let b ← againY b
      return f a b) :
    Repeats (do
      let a ← x
      let b ← y
      return f a b) againMap where
  keeps violation :=
    (hx.keeps violation).bind fun _ => (hy.keeps violation).bind fun _ => keeps_pure _
  quiet {_ after _} h findings hmore := by
    obtain ⟨a, middle, hfirst, h⟩ := outcome_bind_eq_ok_iff.1 h
    obtain ⟨b, last, hsecond, h⟩ := outcome_bind_eq_ok_iff.1 h
    cases h
    rw [hagain a b]
    -- What the first part has noted is still there after the second one.
    have hkept : ∀ violation ∈ middle.violations, violation ∈ after.violations := fun violation hmem => by
      have := hy.keeps violation middle hmem
      rwa [hsecond] at this
    refine (hx.quiet hfirst fun violation hmem => hmore violation (hkept violation hmem)).bind ?_
    intro findings' hsame
    refine (hy.quiet hsecond ?_).bind fun _ _ => quiet_pure
    rwa [hsame]

theorem repeats_listMapM {f : α → Resolution α} (hf : ∀ a, Repeats (f a) f) (items : List α) :
    Repeats (items.mapM f) fun items => items.mapM f := by
  induction items with
  | nil => exact repeats_pure rfl
  | cons a items ih =>
    rw [List.mapM_cons]
    exact (hf a).map₂ ih fun _ _ => List.mapM_cons

theorem repeats_optionMapM {f : α → Resolution α} (hf : ∀ a, Repeats (f a) f) (item : Option α) :
    Repeats (item.mapM f) fun item => item.mapM f := by
  cases item with
  | none => exact repeats_pure rfl
  | some a => exact (hf a).map fun _ _ => rfl

end Repeats

/-! ## Descriptors -/

section Descriptors

variable {C : Type} {f : C → Resolution C} (hf : ∀ name, Repeats (f name) f)

include hf

theorem RefType.repeats_mapClass (type : RefType C) : Repeats (type.mapClass f) (RefType.mapClass f) := by
  cases type with
  | object name => exact (hf name).map fun _ _ => rfl
  | objectArray extraDims element => exact (hf element).map fun _ _ => rfl
  | baseArray extraDims element => exact repeats_pure rfl

theorem FieldType.repeats_mapClass (type : FieldType C) :
    Repeats (type.mapClass f) (FieldType.mapClass f) := by
  cases type with
  | base type => exact repeats_pure rfl
  | ref type => exact (type.repeats_mapClass hf).map fun _ _ => rfl

theorem MethodDescriptor.repeats_mapClass (descriptor : MethodDescriptor C) :
    Repeats (descriptor.mapClass f) (MethodDescriptor.mapClass f) :=
  (repeats_listMapM (FieldType.repeats_mapClass hf) descriptor.parameters).map₂
    (repeats_optionMapM (FieldType.repeats_mapClass hf) descriptor.result) fun _ _ => rfl

end Descriptors

/-! ## Resolvers -/

namespace Resolver

variable {r : Resolver}

theorem keeps_report (diagnostic : Diagnostic) (violation : Violation) :
    Keeps (r.report diagnostic) fun findings => violation ∈ findings.violations := by
  intro findings hmem
  rwa [outcome_report, violations_reported]

theorem quiet_report (diagnostic : Diagnostic) (findings : Findings) :
    Quiet (r.report diagnostic) findings () :=
  ⟨_, outcome_report r diagnostic findings, violations_reported r diagnostic findings⟩

theorem keeps_reportElement (text : List Char) (violation : Violation) :
    Keeps (r.reportElement text) fun findings => violation ∈ findings.violations := by
  unfold reportElement
  split
  · exact keeps_pure ()
  · exact keeps_report _ violation

theorem quiet_resolveElement_of_plain {text : List Char} (hplain : IsPlain text) (findings : Findings) :
    Quiet (r.resolveElement text) findings (String.ofList text) := by
  have hreport : Quiet (r.reportElement text) findings () := by
    unfold reportElement
    split
    · exact quiet_pure
    · exact quiet_report _ findings
  rw [resolveElement_of_plain r hplain]
  exact hreport.bind fun _ _ => quiet_pure

theorem keeps_refuse (name : String) (violation : Violation) :
    Keeps (r.refuse name) fun findings => violation ∈ findings.violations := by
  intro findings hmem
  cases hmode : r.settings.mode with
  | strict => rwa [outcome_refuse_strict r hmode, violations_reported]
  | lazy =>
    rw [outcome_refuse_lazy r hmode]
    exact Findings.mem_violations_note_of_mem (by rwa [violations_reported]) _

/-- What has been noted is refused quietly. -/
theorem quiet_blame {offender? : Option String} {findings : Findings}
    (hnoted : r.Noted findings.violations offender?) : Quiet (r.blame offender?) findings () := by
  cases offender? with
  | none => exact quiet_pure
  | some offender =>
    obtain ⟨hmode, hmem⟩ := hnoted offender rfl
    refine ⟨_, outcome_refuse_lazy r hmode offender findings, ?_⟩
    rw [Findings.note_of_mem (by rwa [violations_reported]), violations_reported]

theorem keeps_resolveClass (name : String) (violation : Violation) :
    Keeps (r.resolveClass name) fun findings => violation ∈ findings.violations := by
  rw [resolveClass_eq]
  refine Keeps.bind ?_ fun _ => Keeps.bind ?_ fun _ => keeps_pure _
  · cases (r.verdict name).offender? with
    | none => exact keeps_pure ()
    | some offender => exact keeps_refuse offender violation
  · unfold reportMove
    split
    · exact keeps_report _ violation
    · exact keeps_pure ()

/-- A name that stays is resolved quietly once its offender has been noted. -/
theorem quiet_resolveClass {name : String} {offender? : Option String} (hstays : r.Stays name offender?)
    {findings : Findings} (hnoted : r.Noted findings.violations offender?) :
    Quiet (r.resolveClass name) findings name := by
  have hmove : ∀ findings, Quiet (r.reportMove name name) findings () := fun _ => by
    rw [reportMove, if_neg (not_not.2 rfl)]
    exact quiet_pure
  rw [resolveClass_eq]
  rcases hstays with h | h <;> rw [h]
  · exact quiet_pure.bind fun _ _ => (hmove _).bind fun _ _ => quiet_pure
  · exact (quiet_blame hnoted).bind fun _ _ => (hmove _).bind fun _ _ => quiet_pure

variable (hapart : BinaryName.Apart r.settings.sandboxed r.settings.forbidden)

include hapart

theorem repeats_resolveClass (name : String) : Repeats (r.resolveClass name) r.resolveClass where
  keeps := keeps_resolveClass name
  quiet h _ hmore := by
    obtain ⟨rfl, hnoted⟩ := outcome_resolveClass_ok h
    refine quiet_resolveClass (stays_verdict hapart name) fun offender hmem => ?_
    exact ⟨(hnoted offender hmem).1, hmore _ (hnoted offender hmem).2⟩

theorem repeats_resolveElement (text : List Char) :
    Repeats (r.resolveElement text) fun element => r.resolveElement element.toList := by
  rcases isPlain_or_exists text with hplain | ⟨name, hne, rfl⟩
  · refine ⟨fun violation => ?_, fun h findings _ => ?_⟩
    · rw [resolveElement_of_plain r hplain]
      exact (keeps_reportElement text violation).bind fun _ => keeps_pure _
    · rw [resolveElement_of_plain r hplain] at h
      obtain ⟨_, _, -, h⟩ := outcome_bind_eq_ok_iff.1 h
      cases h
      rw [String.toList_ofList]
      exact quiet_resolveElement_of_plain hplain findings
  · rw [resolveElement_of_class r hne]
    refine (repeats_resolveClass hapart name).map fun resolved hresolved => ?_
    obtain ⟨_, _, h⟩ := hresolved
    obtain ⟨rfl, -⟩ := outcome_resolveClass_ok h
    rw [String.toList_ofList, resolveElement_of_class r (resolved_ne_empty hne)]

theorem repeats_resolveDescriptor (descriptor : String) :
    Repeats (r.resolveDescriptor descriptor) r.resolveDescriptor := by
  obtain ⟨dimensions, element, htext, hstop⟩ := exists_eq_replicate_append '[' descriptor.toList
  obtain rfl : descriptor = String.ofList (List.replicate dimensions '[' ++ element) := by
    rw [← htext, String.ofList_toList]
  rw [resolveDescriptor_eq r dimensions hstop]
  refine (repeats_resolveElement hapart element).map fun resolved hresolved => ?_
  exact resolveDescriptor_eq r dimensions (head?_resolveElement r hstop hresolved)

theorem repeats_resolveName (name : BinaryName) : Repeats (r.resolveName name) r.resolveName where
  keeps violation := by
    refine (keeps_resolveClass name.text violation).bind fun resolved => ?_
    split
    · exact keeps_pure _
    · exact keeps_throw _
  quiet h findings hmore := by
    obtain ⟨text, middle, hclass, h⟩ := outcome_bind_eq_ok_iff.1 h
    split at h
    · rename_i hname
      cases h
      obtain rfl := BinaryName.text_of_ofString hname
      refine ((repeats_resolveClass hapart name.text).quiet hclass hmore).bind fun _ _ => ?_
      rw [hname]
      exact quiet_pure
    · cases h

theorem repeats_resolveMethodDescriptor (descriptor : String) :
    Repeats (r.resolveMethodDescriptor descriptor) r.resolveMethodDescriptor := by
  cases hparse : parseAll MethodDescriptor.read descriptor with
  | ok parsed =>
    obtain rfl := MethodDescriptor.parseAll_read_iff.1 hparse
    rw [resolveMethodDescriptor_eq]
    exact (parsed.repeats_mapClass (repeats_resolveName hapart)).map fun resolved _ =>
      resolveMethodDescriptor_eq r resolved
  | error fault =>
    refine ⟨fun violation => ?_, @fun _ after _ h findings hmore => ?_⟩
    · rw [resolveMethodDescriptor_of_error r hparse]
      exact (keeps_refuse descriptor violation).bind fun _ => keeps_pure _
    · rw [resolveMethodDescriptor_of_error r hparse] at h
      obtain ⟨_, _, hrefuse, h⟩ := outcome_bind_eq_ok_iff.1 h
      cases h
      have hnoted : r.Noted after.violations (some descriptor) := noted_of_outcome_blame hrefuse
      have hblame : Quiet (r.blame (some descriptor)) findings () := quiet_blame fun offender hmem =>
        ⟨(hnoted offender hmem).1, hmore _ (hnoted offender hmem).2⟩
      rw [resolveMethodDescriptor_of_error r hparse]
      exact hblame.bind fun _ _ => quiet_pure

/-- Resolution is idempotent. -/
theorem resolution_idempotent {operation : Resolver → String → Resolution String}
    (hoperation : operation ∈ [resolveClass, resolveDescriptor, resolveMethodDescriptor])
    {name resolved : String} {before after : Findings}
    (h : outcome (operation r name) before = (.ok resolved, after)) :
    ∃ last, outcome (operation r resolved) after = (.ok resolved, last) ∧
      last.violations = after.violations := by
  have hrepeats : Repeats (operation r name) (operation r) := by
    simp only [List.mem_cons, List.not_mem_nil, or_false] at hoperation
    rcases hoperation with rfl | rfl | rfl
    · exact repeats_resolveClass hapart name
    · exact repeats_resolveDescriptor hapart name
    · exact repeats_resolveMethodDescriptor hapart name
  exact hrepeats.quiet h fun _ hmem => hmem

omit hapart

/-- The example resolver in lazy mode. -/
def lazyExample : Resolver := { exampleResolver true with settings := { Settings.standard with mode := .lazy } }

theorem verdict_lazyExample :
    lazyExample.verdict "java/lang/Thread" = ⟨"forbidden/java/lang/Thread", some "java/lang/Thread"⟩ := by
  have hdenied : lazyExample.policy.allows "java/lang/Thread" = false :=
    (Policy.allows_ofLists ["java/util"] [] ⟨"java/lang/Thread", by decide⟩).trans (by decide)
  rw [verdict_eq_freshVerdict (by decide) (by decide) (by decide) (by decide), freshVerdict, hdenied]
  decide

/-- An array of a forbidden class, whose violation is noted only once. -/
theorem resolution_idempotent_thread :
    BinaryName.Apart lazyExample.settings.sandboxed lazyExample.settings.forbidden ∧
      outcome (lazyExample.resolveDescriptor "[Ljava/lang/Thread;") .none =
        (.ok "[Lforbidden/java/lang/Thread;", ⟨#[⟨"java/lang/Thread", "team1"⟩], #[]⟩) ∧
      ∃ last, outcome (lazyExample.resolveDescriptor "[Lforbidden/java/lang/Thread;")
          ⟨#[⟨"java/lang/Thread", "team1"⟩], #[]⟩ = (.ok "[Lforbidden/java/lang/Thread;", last) ∧
        last.violations = #[⟨"java/lang/Thread", "team1"⟩] := by
  have hapart : BinaryName.Apart lazyExample.settings.sandboxed lazyExample.settings.forbidden := by decide
  have hblame : outcome (lazyExample.blame (some "java/lang/Thread")) .none =
      (.ok (), ⟨#[⟨"java/lang/Thread", "team1"⟩], #[]⟩) := by
    rw [blame, outcome_refuse_lazy _ rfl, Findings.note, if_neg (by simp [Findings.none])]
    rfl
  have hresolves : outcome (lazyExample.resolveDescriptor "[Ljava/lang/Thread;") .none =
      (.ok "[Lforbidden/java/lang/Thread;", ⟨#[⟨"java/lang/Thread", "team1"⟩], #[]⟩) := by
    rw [show "[Ljava/lang/Thread;" = String.ofList (List.replicate 1 '[' ++
        ('L' :: "java/lang/Thread".toList ++ [';'])) by decide,
      resolveDescriptor_eq _ _ (by decide), resolveElement_of_class _ (by decide), resolveClass_eq,
      verdict_lazyExample]
    simp only [outcome_bind, hblame, outcome_reportMove, outcome_pure]
    rfl
  exact ⟨hapart, hresolves, resolution_idempotent hapart (by simp) hresolves⟩

end Resolver

end ClassSandbox
