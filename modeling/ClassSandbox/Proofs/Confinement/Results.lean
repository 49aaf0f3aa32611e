import ClassSandbox.Proofs.Confinement.Matching
import ClassSandbox.Proofs.Resolution.Verdict

/-!
# Results of resolution

The result of an operation depends on the rules and on the mode alone, and not on what was found before it or
on whether diagnostics are kept. So a resolver `Resolves` a text to another one, if it ever gives that result
(`resolves_of_mayGive`).
-/

namespace ClassSandbox

/-- The same value or the same fault, from whatever findings. -/
def results : Simulation Resolution Resolution where
  Rel x y := ∀ before before', (outcome x before).1 = (outcome y before').1
  pure _ := fun _ _ => rfl
  bind := by
    intro α β x y f g hxy hfg before before'
    have hsame := hxy before before'
    rw [outcome_bind, outcome_bind]
    generalize outcome x before = s at hsame
    generalize outcome y before' = t at hsame
    obtain ⟨result, after⟩ := s
    obtain ⟨result', after'⟩ := t
    obtain rfl : result = result' := hsame
    cases result with
    | error fault => rfl
    | ok a => exact hfg a after after'

namespace Resolver

variable (r : Resolver)

/-- An operation on texts succeeds with a result, whatever was found before and whether or not diagnostics
are kept. -/
def Resolves (operation : Resolver → String → Resolution String) (old new : String) : Prop :=
  ∀ silenced findings, (outcome (operation { r with silenced } old) findings).1 = .ok new

theorem results_report (silenced : Bool) (diagnostic : Diagnostic) :
    results.Rel (r.report diagnostic) (({ r with silenced } : Resolver).report diagnostic) := by
  intro before before'
  rw [outcome_report, outcome_report]

theorem results_refuse (silenced : Bool) (name : String) :
    results.Rel (r.refuse name) (({ r with silenced } : Resolver).refuse name) := by
  intro before before'
  cases hmode : r.settings.mode with
  | strict => rw [outcome_refuse_strict r hmode, outcome_refuse_strict { r with silenced } hmode]
  | lazy => rw [outcome_refuse_lazy r hmode, outcome_refuse_lazy { r with silenced } hmode]

theorem results_matches (silenced : Bool) : results.MatchesInFiles r { r with silenced } where
  toMatches := by
    have hnames : r.SameNames { r with silenced } := rfl
    exact .of_verdict (verdict_eq_of_sameNames hnames rfl rfl) rfl (r.results_report silenced)
      (r.results_refuse silenced) fun _ _ _ => rfl
  classFault _ := fun _ _ => rfl
  flags := rfl

variable {r}

/-- One run of an operation shows what it gives in any. -/
theorem resolves_of_mayGive {operation : Resolver → String → Resolution String} {old new : String}
    (h : MayGive (operation r old) new)
    (hmatch : ∀ silenced, results.Rel (operation r old) (operation { r with silenced } old)) :
    r.Resolves operation old new := by
  intro silenced findings
  obtain ⟨before, after, hrun⟩ := h
  rw [← hmatch silenced before findings, hrun]

theorem mayGive_of_resolves {operation : Resolver → String → Resolution String} {old new : String}
    (h : r.Resolves operation old new) : MayGive (operation r old) new :=
  ⟨.none, (outcome (operation r old) .none).2, Prod.ext (h r.silenced .none) rfl⟩

end Resolver

end ClassSandbox
