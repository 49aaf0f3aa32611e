import ClassSandbox.Proofs.Confinement.Matching
import ClassSandbox.Proofs.Resolution.Verdict

/-!
# Strict and lazy mode

The two modes do the same until there is something to refuse. There strict mode stops, and lazy mode notes
the violation, as its first one, and goes on. So the outcomes of any resolution and of `confine` in the two
modes agree (`ModesAgree`), which is `confine_modesAgree`.
-/

namespace ClassSandbox

/-- What an action gives in strict and in lazy mode, in findings without violations. -/
inductive ModesAgree {α : Type} :
    Except SandboxFault α × Findings → Except SandboxFault α × Findings → Prop where
  /-- There was nothing to refuse. -/
  | clean {result : Except SandboxFault α} {findings : Findings}
      (allowed : ∀ violation, result ≠ .error (.violation violation)) (none : findings.violations = #[]) :
      ModesAgree (result, findings) (result, findings)
  /-- Strict mode stopped at the violation that lazy mode noted first. -/
  | refused {violation : Violation} {stopped : Findings} {finished : Except SandboxFault α × Findings}
      (first : finished.2.violations[0]? = some violation) :
      ModesAgree (.error (.violation violation), stopped) finished

/-- The first violation stays the first one. -/
def KeepsFirst {α : Type} (x : Resolution α) : Prop :=
  ∀ (findings : Findings) (violation : Violation), findings.violations[0]? = some violation →
    (outcome x findings).2.violations[0]? = some violation

theorem ModesAgree.bind {α β : Type} {x y : Resolution α} {f g : α → Resolution β} {findings : Findings}
    (h : ModesAgree (outcome x findings) (outcome y findings))
    (hnext : ∀ a later, later.violations = #[] → ModesAgree (outcome (f a) later) (outcome (g a) later))
    (hkeeps : ∀ a, KeepsFirst (g a)) :
    ModesAgree (outcome (x >>= f) findings) (outcome (y >>= g) findings) := by
  rw [outcome_bind, outcome_bind]
  generalize outcome x findings = s at h
  generalize outcome y findings = t at h
  cases h with
  | @clean result later allowed none =>
    cases result with
    | ok a => exact hnext a later none
    | error fault => exact .clean (fun violation heq => allowed violation (by cases heq; rfl)) none
  | @refused violation stopped finished first =>
    refine .refused ?_
    rcases t with ⟨fault | a, later⟩
    · exact first
    · exact hkeeps a later violation first

/-- Agreement from findings without violations, when lazy mode keeps the first violation from any others. -/
def modes : Simulation Resolution Resolution where
  Rel x y := (∀ findings, findings.violations = #[] → ModesAgree (outcome x findings) (outcome y findings)) ∧
    KeepsFirst y
  pure a := ⟨fun findings hnone => .clean (fun _ heq => nomatch heq) hnone, fun _ _ h => h⟩
  bind := by
    intro α β x y f g hxy hfg
    refine ⟨fun findings hnone => (hxy.1 findings hnone).bind (fun a => (hfg a).1) fun a => (hfg a).2, ?_⟩
    intro findings violation hfirst
    have hlater := hxy.2 findings violation hfirst
    rw [outcome_bind]
    rcases houtcome : outcome y findings with ⟨fault | a, later⟩ <;> rw [houtcome] at hlater
    · exact hlater
    · exact (hfg a).2 later violation hlater

namespace Resolver

/-- The same resolver in another mode. -/
def inMode (r : Resolver) (mode : ViolationMode) : Resolver :=
  { r with settings := { r.settings with mode } }

variable (r : Resolver)

theorem modes_report (diagnostic : Diagnostic) :
    modes.Rel ((r.inMode .strict).report diagnostic) ((r.inMode .lazy).report diagnostic) := by
  refine ⟨fun findings hnone => ?_, fun findings violation hfirst => ?_⟩
  · rw [outcome_report, outcome_report]
    exact .clean (fun _ heq => nomatch heq) (by rwa [violations_reported])
  · rwa [outcome_report, violations_reported]

theorem modes_refuse (name : String) :
    modes.Rel ((r.inMode .strict).refuse name) ((r.inMode .lazy).refuse name) := by
  refine ⟨fun findings hnone => ?_, fun findings violation hfirst => ?_⟩
  · rw [outcome_refuse_strict _ rfl, outcome_refuse_lazy _ rfl]
    refine .refused ?_
    simp [Findings.note, hnone, inMode]
  · rw [outcome_refuse_lazy _ rfl]
    exact Findings.first_note (by rwa [violations_reported]) _

theorem modes_throw {α : Type} {fault : SandboxFault} (h : ∀ violation, fault ≠ .violation violation) :
    modes.Rel (throw fault : Resolution α) (throw fault) := by
  refine ⟨fun findings hnone => .clean (fun violation heq => ?_) hnone, fun _ _ hfirst => hfirst⟩
  exact h violation (Except.error.inj heq)

theorem modes_matches : modes.MatchesInFiles (r.inMode .strict) (r.inMode .lazy) where
  toMatches := by
    have hnames : (r.inMode .strict).SameNames (r.inMode .lazy) := rfl
    exact .of_verdict (verdict_eq_of_sameNames hnames rfl rfl) rfl r.modes_report r.modes_refuse fun _ =>
      modes_throw fun _ heq => nomatch heq
  classFault _ := modes_throw fun _ heq => nomatch heq
  flags := rfl

/-- On whole classes the two modes agree, whatever the class, the rules and the diagnostics so far. -/
theorem confine_modesAgree (file : ClassFile) (diagnostics : Array Diagnostic) :
    ModesAgree (outcome ((r.inMode .strict).confine file) ⟨#[], diagnostics⟩)
      (outcome ((r.inMode .lazy).confine file) ⟨#[], diagnostics⟩) :=
  (r.modes_matches.confine file).1 _ rfl

end Resolver

end ClassSandbox
