import ClassSandbox.Proofs.Outcome
import ClassSandbox.Resolution

/-!
# Refusals

The outcomes of `Resolver.report` and `Resolver.refuse`, through which everything that resolution finds goes.
Reporting never fails and leaves the violations alone. Refusing a name ends the work in strict mode, and in
lazy mode the violation is among those noted afterwards. `resolveClass_eq` reduces the resolution of a class
name to its verdict.
-/

namespace ClassSandbox

namespace Findings

theorem mem_violations_note (findings : Findings) (violation : Violation) :
    violation ∈ (findings.note violation).violations := by
  unfold note
  split
  · rename_i hfound
    exact Array.contains_iff_mem.1 hfound
  · exact Array.mem_push_self

/-- The first violation stays the first one. -/
theorem first_note {findings : Findings} {first : Violation} (h : findings.violations[0]? = some first)
    (violation : Violation) : (findings.note violation).violations[0]? = some first := by
  unfold note
  split
  · exact h
  · obtain ⟨hpos, -⟩ := Array.getElem?_eq_some_iff.1 h
    rw [Array.getElem?_push_lt hpos, ← Array.getElem?_eq_getElem hpos, h]

end Findings

namespace Resolver

variable (r : Resolver)

/-- The findings after a report, which a silenced resolver drops. -/
def reported (diagnostic : Diagnostic) (findings : Findings) : Findings :=
  if r.silenced then findings else findings.report diagnostic

@[simp]
theorem violations_reported (diagnostic : Diagnostic) (findings : Findings) :
    (r.reported diagnostic findings).violations = findings.violations := by
  unfold reported
  split <;> rfl

theorem outcome_report (diagnostic : Diagnostic) (findings : Findings) :
    outcome (r.report diagnostic) findings = (.ok (), r.reported diagnostic findings) := by
  unfold report reported
  cases r.silenced <;> rfl

theorem outcome_refuse_strict (hmode : r.settings.mode = .strict) (name : String) (findings : Findings) :
    outcome (r.refuse name) findings =
      (.error (.violation ⟨name, r.sandbox.text⟩),
        r.reported (.violation ⟨name, r.sandbox.text⟩) findings) := by
  simp only [refuse, hmode, outcome_bind, outcome_report, outcome_throw]

theorem not_mayGive_refuse (hmode : r.settings.mode = .strict) {name : String} {u : Unit} :
    ¬MayGive (r.refuse name) u := by
  rintro ⟨before, after, h⟩
  rw [outcome_refuse_strict r hmode] at h
  cases h

theorem outcome_refuse_lazy (hmode : r.settings.mode = .lazy) (name : String) (findings : Findings) :
    outcome (r.refuse name) findings =
      (.ok (), (r.reported (.deferred ⟨name, r.sandbox.text⟩) findings).note ⟨name, r.sandbox.text⟩) := by
  simp only [refuse, hmode, outcome_bind, outcome_report, outcome_modify]

/-! ## Class names -/

/-- Refuses a name, if there is one to blame. -/
def blame : Option String → Resolution Unit
  | some offender => r.refuse offender
  | none => pure ()

/-- Reports a name that has moved. -/
def reportMove (old new : String) : Resolution Unit :=
  if new ≠ old then r.report (.redirected old new) else pure ()

/-- Resolution of a class name is its verdict, with what is to be said about it. -/
theorem resolveClass_eq (name : String) :
    r.resolveClass name = do
      r.blame (r.verdict name).offender?
      r.reportMove name (r.verdict name).resolved
      return (r.verdict name).resolved := by
  unfold resolveClass blame reportMove
  rcases r.verdict name with ⟨resolved, _ | offender⟩ <;> by_cases hmoved : resolved = name <;> simp [hmoved]

theorem outcome_reportMove (old new : String) (findings : Findings) :
    outcome (r.reportMove old new) findings =
      (.ok (), if new ≠ old then r.reported (.redirected old new) findings else findings) := by
  unfold reportMove
  split
  · exact r.outcome_report _ _
  · rfl

/-- Whatever is to blame has been noted, as happens in lazy mode only. -/
def Noted (violations : Array Violation) (offender? : Option String) : Prop :=
  ∀ offender ∈ offender?, r.settings.mode = .lazy ∧ ⟨offender, r.sandbox.text⟩ ∈ violations

variable {r} {before after : Findings}

theorem noted_of_outcome_blame {offender? : Option String}
    (h : outcome (r.blame offender?) before = (.ok (), after)) : r.Noted after.violations offender? := by
  intro offender hmem
  obtain rfl := Option.mem_def.1 hmem
  cases hmode : r.settings.mode with
  | strict =>
    rw [blame, outcome_refuse_strict r hmode] at h
    cases h
  | lazy =>
    rw [blame, outcome_refuse_lazy r hmode] at h
    cases h
    exact ⟨rfl, Findings.mem_violations_note _ _⟩

/-- A class name that resolution accepts turns into the name of its verdict. -/
theorem outcome_resolveClass_ok {name resolved : String}
    (h : outcome (r.resolveClass name) before = (.ok resolved, after)) :
    resolved = (r.verdict name).resolved ∧ r.Noted after.violations (r.verdict name).offender? := by
  rw [resolveClass_eq] at h
  obtain ⟨_, middle, hblame, h⟩ := outcome_bind_eq_ok_iff.1 h
  obtain ⟨_, last, hmove, h⟩ := outcome_bind_eq_ok_iff.1 h
  rw [outcome_reportMove] at hmove
  rw [outcome_pure] at h
  cases h
  have hsame : after.violations = middle.violations := by
    cases hmove
    split <;> simp
  rw [hsame]
  exact ⟨rfl, noted_of_outcome_blame hblame⟩

/-- A name that is accepted in strict mode has a verdict that blames nobody. -/
theorem verdict_of_mayGive (hstrict : r.settings.mode = .strict) {name resolved : String}
    (h : MayGive (r.resolveClass name) resolved) : r.verdict name = ⟨resolved, none⟩ := by
  obtain ⟨before, after, h⟩ := h
  obtain ⟨rfl, hnoted⟩ := outcome_resolveClass_ok h
  have hnone : (r.verdict name).offender? = none := Option.eq_none_iff_forall_ne_some.2 fun offender hsome => by
    have hlazy := (hnoted offender hsome).1
    rw [hstrict] at hlazy
    cases hlazy
  rw [← hnone]

end Resolver

end ClassSandbox
