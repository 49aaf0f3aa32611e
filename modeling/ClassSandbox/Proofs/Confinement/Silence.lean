import ClassSandbox.Proofs.Confinement.Matching
import ClassSandbox.Proofs.Resolution.Verdict
import Mathlib.Data.List.Induction

/-!
# Silence

A resolver that drops its diagnostics does the same as one that keeps them, and the diagnostics that are kept tell of
all the violations that are noted. Both are about two runs, and follow step by step: `silencing` relates actions by
what the first one reports (`Reports`), and what a sequence reports is what its parts report, one after the other.

A violation is noted once and reported each time, so without the repetitions among the reports they are the same list
(`noteAll_eq_eraseDups`). `Resolver.silenceable` says all of it for each operation.
-/

namespace ClassSandbox

/-! ## Violations and reports of them -/

/-- The violation that was noted, if the diagnostic tells of one. -/
def Diagnostic.deferred? : Diagnostic → Option Violation
  | deferred found => some found
  | _ => none

/-- The violations with another one, unless it is among them. -/
def noteIn (violations : Array Violation) (violation : Violation) : Array Violation :=
  if violations.contains violation then violations else violations.push violation

theorem Findings.violations_note (findings : Findings) (violation : Violation) :
    (findings.note violation).violations = noteIn findings.violations violation := by
  unfold note noteIn
  split <;> rfl

@[simp]
theorem Findings.diagnostics_note (findings : Findings) (violation : Violation) :
    (findings.note violation).diagnostics = findings.diagnostics := by
  unfold note
  split <;> rfl

/-- To note each of some violations is to keep the first of those that are the same. -/
theorem noteAll_eq_eraseDups (violations : List Violation) :
    (violations.foldl noteIn #[]).toList = violations.eraseDups := by
  induction violations using List.reverseRecOn with
  | nil => rfl
  | append_singleton earlier violation ih =>
    rw [List.foldl_append, List.foldl_cons, List.foldl_nil, List.eraseDups_append, ← ih]
    have hknown : violation ∈ earlier.foldl noteIn #[] ↔ violation ∈ earlier := by
      rw [← Array.mem_toList_iff, ih, List.mem_eraseDups]
    generalize earlier.foldl noteIn #[] = known at hknown ⊢
    by_cases hmem : violation ∈ earlier
    · simp [noteIn, hknown, List.removeAll, hmem]
    · simp [noteIn, hknown, List.removeAll, hmem, List.eraseDups_cons]

/-! ## Runs with and without diagnostics -/

/-- What two runs have in common, one that adds these diagnostics to the ones before and one that adds none. -/
structure Reports {α : Type} (before before' : Findings) (loud silent : Except SandboxFault α × Findings)
    (reported : List Diagnostic) : Prop where
  result : silent.1 = loud.1
  violations : silent.2.violations = loud.2.violations
  quiet : silent.2.diagnostics = before'.diagnostics
  told : loud.2.diagnostics.toList = before.diagnostics.toList ++ reported
  noted : loud.2.violations = (reported.filterMap Diagnostic.deferred?).foldl noteIn before.violations

/-- Two actions that are the same but for the diagnostics of the first one. -/
def silencing : Simulation Resolution Resolution where
  Rel x y := ∀ s t, t.violations = s.violations → ∃ reported, Reports s t (outcome x s) (outcome y t) reported
  pure _ := fun _ _ hsame => ⟨[], rfl, hsame, rfl, (List.append_nil _).symm, rfl⟩
  bind := by
    intro α β x y f g hxy hfg s t hsame
    obtain ⟨reported, hfirst⟩ := hxy s t hsame
    rw [outcome_bind, outcome_bind]
    generalize outcome x s = run at hfirst
    generalize outcome y t = run' at hfirst
    obtain ⟨result, after⟩ := run
    obtain ⟨result', after'⟩ := run'
    obtain rfl : result' = result := hfirst.result
    cases result' with
    | error fault =>
      exact ⟨reported, rfl, hfirst.violations, hfirst.quiet, hfirst.told, hfirst.noted⟩
    | ok a =>
      obtain ⟨more, hnext⟩ := hfg a after after' hfirst.violations
      refine ⟨reported ++ more, hnext.result, hnext.violations, hnext.quiet.trans hfirst.quiet, ?_, ?_⟩
      · rw [hnext.told, hfirst.told, List.append_assoc]
      · rw [hnext.noted, hfirst.noted, List.filterMap_append, List.foldl_append]

theorem silencing_throw {α : Type} (fault : SandboxFault) : silencing.Rel (throw fault : Resolution α) (throw fault) :=
  fun _ _ hsame => ⟨[], rfl, hsame, rfl, (List.append_nil _).symm, rfl⟩

namespace Resolver

variable (r : Resolver)

/-- The same resolver with or without diagnostics. -/
def withSilence (silenced : Bool) : Resolver := { r with silenced }

theorem reported_loud (diagnostic : Diagnostic) (findings : Findings) :
    (r.withSilence false).reported diagnostic findings = findings.report diagnostic := rfl

theorem reported_silent (diagnostic : Diagnostic) (findings : Findings) :
    (r.withSilence true).reported diagnostic findings = findings := rfl

/-- A report of its own tells of no violation that is noted. -/
theorem silencing_report {diagnostic : Diagnostic} (h : diagnostic.deferred? = none) :
    silencing.Rel ((r.withSilence false).report diagnostic) ((r.withSilence true).report diagnostic) := by
  intro s t hsame
  rw [outcome_report, outcome_report, reported_loud, reported_silent]
  refine ⟨[diagnostic], rfl, hsame, rfl, ?_, ?_⟩
  · simp [Findings.report]
  · simp [Findings.report, h]

/-- Where a violation is noted it is reported too, and nowhere else. -/
theorem silencing_refuse (name : String) :
    silencing.Rel ((r.withSilence false).refuse name) ((r.withSilence true).refuse name) := by
  intro s t hsame
  cases hmode : r.settings.mode with
  | strict =>
    rw [outcome_refuse_strict (r.withSilence false) hmode,
      outcome_refuse_strict (r.withSilence true) hmode, reported_loud, reported_silent]
    refine ⟨[.violation ⟨name, r.sandbox.text⟩], rfl, hsame, rfl, ?_, rfl⟩
    simp [Findings.report, withSilence]
  | lazy =>
    rw [outcome_refuse_lazy (r.withSilence false) hmode,
      outcome_refuse_lazy (r.withSilence true) hmode, reported_loud, reported_silent]
    refine ⟨[.deferred ⟨name, r.sandbox.text⟩], rfl, ?_, Findings.diagnostics_note _ _, ?_, ?_⟩
    · rw [Findings.violations_note, Findings.violations_note, hsame]
      rfl
    · simp [Findings.report, withSilence]
    · rw [Findings.violations_note]
      rfl

theorem silencing_matches : silencing.MatchesInFiles (r.withSilence false) (r.withSilence true) where
  toMatches := by
    have hnames : (r.withSilence false).SameNames (r.withSilence true) := rfl
    exact .of_reports (verdict_eq_of_sameNames hnames rfl rfl) rfl (fun _ _ => r.silencing_report rfl)
      (fun _ _ => r.silencing_report rfl) r.silencing_refuse fun _ => silencing_throw _
  classFault _ := silencing_throw _
  flags := rfl

end Resolver

/-! ## Operations -/

/-- What the outcomes of an operation with and without diagnostics have in common. -/
structure Mirrored {α : Type} (before : Findings) (loud silent : Except SandboxFault α × Findings) : Prop where
  result : silent.1 = loud.1
  violations : silent.2.violations = loud.2.violations
  quiet : silent.2.diagnostics = before.diagnostics
  /-- The diagnostics that are added tell of the violations that are noted, in the same order but maybe again. -/
  mirrored : ∃ reported, loud.2.diagnostics.toList = before.diagnostics.toList ++ reported ∧
    (before.violations = #[] → loud.2.violations.toList = (reported.filterMap Diagnostic.deferred?).eraseDups)

theorem mirrored_of_silencing {α : Type} {x y : Resolution α} (h : silencing.Rel x y) (before : Findings) :
    Mirrored before (outcome x before) (outcome y before) := by
  obtain ⟨reported, hreports⟩ := h before before rfl
  refine ⟨hreports.result, hreports.violations, hreports.quiet, reported, hreports.told, fun hnone => ?_⟩
  rw [hreports.noted, hnone, noteAll_eq_eraseDups]

namespace Resolver

/-- An operation is mirrored whatever was found before it. -/
def Mirrors (r : Resolver) {α : Type} (operation : Resolver → Resolution α) : Prop :=
  ∀ before, Mirrored before (outcome (operation (r.withSilence false)) before)
    (outcome (operation (r.withSilence true)) before)

/-- The resolver can do without its diagnostics, and they tell of all that it notes. -/
structure Silenceable (r : Resolver) : Prop where
  resolveClass : ∀ name, r.Mirrors (·.resolveClass name)
  resolveDescriptor : ∀ descriptor, r.Mirrors (·.resolveDescriptor descriptor)
  resolveMethodDescriptor : ∀ descriptor, r.Mirrors (·.resolveMethodDescriptor descriptor)
  resolveSignature : ∀ signature?, r.Mirrors (·.resolveSignature signature?)
  resolveFieldSignature : ∀ signature?, r.Mirrors (·.resolveFieldSignature signature?)
  resolveClassHeader : ∀ header, r.Mirrors (·.resolveClassHeader header)
  resolveField : ∀ header, r.Mirrors (·.resolveField header)
  resolveMethod : ∀ header, r.Mirrors (·.resolveMethod header)
  confine : ∀ file, r.Mirrors (·.confine file)

/-- No resolver needs its diagnostics, in whichever mode it is and whatever its rules are. -/
theorem silenceable (r : Resolver) : r.Silenceable where
  resolveClass name := mirrored_of_silencing (r.silencing_matches.resolveClass name)
  resolveDescriptor descriptor := mirrored_of_silencing (r.silencing_matches.resolveDescriptor descriptor)
  resolveMethodDescriptor descriptor :=
    mirrored_of_silencing (r.silencing_matches.resolveMethodDescriptor descriptor)
  resolveSignature signature? := mirrored_of_silencing (r.silencing_matches.resolveSignature signature?)
  resolveFieldSignature signature? := mirrored_of_silencing (r.silencing_matches.resolveFieldSignature signature?)
  resolveClassHeader header := mirrored_of_silencing (r.silencing_matches.resolveClassHeader header)
  resolveField header := mirrored_of_silencing (r.silencing_matches.resolveField r.silencing_matches.flags header)
  resolveMethod header := mirrored_of_silencing (r.silencing_matches.resolveMethod header)
  confine file := mirrored_of_silencing (r.silencing_matches.confine file)

end Resolver

end ClassSandbox
