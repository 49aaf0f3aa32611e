import ClassSandbox.Proofs.Confinement.Mediation

/-!
# Laxer policies

In strict mode a policy decides whether a name is accepted, and not what it turns into. A `Laxer` resolver forbids
less, or does not apply its policy at all. What the stricter one accepts it turns into the same result, whatever
was found before (`gates_of_laxer`). For whole classes both have to apply their policy, since the flags that
fields keep depend on that.
-/

namespace ClassSandbox

/-- If the first run ever succeeds, then the second one always does, with the same value. -/
def gating : Simulation Resolution Resolution where
  Rel x y := ∀ a, MayGive x a → ∀ findings, (outcome y findings).1 = .ok a
  pure _ := by
    intro b hb findings
    rw [outcome_pure, mayGive_pure hb]
  bind := by
    intro α β x y f g hxy hfg b hb findings
    obtain ⟨a, hx, hf⟩ := mayGive_bind hb
    have hfirst := hxy a hx findings
    have hrest := hfg a b hf (outcome y findings).2
    rw [outcome_bind]
    generalize outcome y findings = t at hfirst hrest
    obtain ⟨result, after⟩ := t
    obtain rfl : result = .ok a := hfirst
    exact hrest

theorem gating_of_throw {α : Type} (fault : SandboxFault) (y : Resolution α) : gating.Rel (throw fault) y := by
  rintro a ⟨before, after, h⟩
  cases h

/-- With more packages and fewer classes on its lists, a policy allows more. -/
theorem Policy.allows_ofLists_mono {allowed allowed' disallowed disallowed' : List String}
    (hallowed : allowed ⊆ allowed') (hdisallowed : disallowed' ⊆ disallowed) {name : String}
    (h : (ofLists allowed disallowed).allows name) : (ofLists allowed' disallowed').allows name := by
  simp only [allows, disallows, inAllowedPackage, ofLists, Bool.and_eq_true,
    Bool.not_eq_true', Std.HashSet.contains_ofList, List.contains_eq_mem, decide_eq_false_iff_not] at h ⊢
  refine ⟨fun hmem => h.1 (hdisallowed hmem), ?_⟩
  cases hparts : Text.splitLast? '/' name.toList with
  | none => simp [hparts] at h
  | some parts =>
    simp only [hparts, decide_eq_true_eq] at h ⊢
    exact hallowed h.2

namespace Resolver

variable {r r' : Resolver}

/-- A resolver for the same sandbox that accepts more in strict mode. -/
structure Laxer (r r' : Resolver) : Prop where
  strict : r.settings.mode = .strict
  settings : r'.settings = r.settings
  sandbox : r'.sandbox = r.sandbox
  /-- If the second one has a policy at all, it allows whatever the first one allows. -/
  allows : r'.enforces = true →
    r.enforces = true ∧ ∀ name, r.policy.allows name = true → r'.policy.allows name = true

theorem Laxer.sameNames (h : r.Laxer r') : r.SameNames r' := by
  obtain ⟨-, hsettings, hsandbox, -⟩ := h
  cases r'
  cases hsettings
  cases hsandbox
  rfl

theorem Laxer.verdict_eq (h : r.Laxer r') {name resolved : String}
    (hrun : MayGive (r.resolveClass name) resolved) : r'.verdict name = ⟨resolved, none⟩ := by
  have hverdict := verdict_of_mayGive h.strict hrun
  rw [verdict_congr h.sameNames (.inr ⟨by rw [hverdict], h.allows⟩), hverdict]

theorem gating_matches (h : r.Laxer r') : gating.Matches r r' where
  resolveClass name := by
    intro resolved hrun findings
    rw [resolveClass_eq, h.verdict_eq hrun, blame, pure_bind, outcome_bind, outcome_reportMove]
    rfl
  refuse _ := fun _ hrun => absurd hrun (not_mayGive_refuse r h.strict)
  unrecognized _ := by
    intro _ _ findings
    rw [outcome_report]
  malformedName fault := gating_of_throw (.malformedName fault) _

theorem gating_matchesInFiles (h : r.Laxer r') (henforces : r'.enforces = r.enforces) :
    gating.MatchesInFiles r r' where
  toMatches := gating_matches h
  classFault fault := gating_of_throw (.classFile fault) _
  flags := by
    unfold keptFieldFlags
    rw [henforces]

/-- Whoever is trusted may mention any class. -/
theorem laxer_trusting (hstrict : r.settings.mode = .strict) : r.Laxer r.trusting where
  strict := hstrict
  settings := rfl
  sandbox := rfl
  allows h := nomatch h

/-! ## Accepting more -/

/-- Whatever the first resolver accepts, the second one accepts with the same result. -/
structure Gates (r r' : Resolver) : Prop where
  resolveClass (name : String) : gating.Rel (r.resolveClass name) (r'.resolveClass name)
  resolveDescriptor (descriptor : String) :
    gating.Rel (r.resolveDescriptor descriptor) (r'.resolveDescriptor descriptor)
  resolveMethodDescriptor (descriptor : String) :
    gating.Rel (r.resolveMethodDescriptor descriptor) (r'.resolveMethodDescriptor descriptor)
  resolveSignature (signature? : Option String) :
    gating.Rel (r.resolveSignature signature?) (r'.resolveSignature signature?)
  resolveFieldSignature (signature? : Option String) :
    gating.Rel (r.resolveFieldSignature signature?) (r'.resolveFieldSignature signature?)
  /-- The flags of fields depend on whether the policy applies. -/
  confine (file : ClassFile) : r'.enforces = r.enforces → gating.Rel (r.confine file) (r'.confine file)

/-- A policy only decides what is accepted: a laxer one accepts it as well, and turns it into the same. -/
theorem gates_of_laxer (h : r.Laxer r') : r.Gates r' where
  resolveClass := (gating_matches h).resolveClass
  resolveDescriptor := (gating_matches h).resolveDescriptor
  resolveMethodDescriptor := (gating_matches h).resolveMethodDescriptor
  resolveSignature := (gating_matches h).resolveSignature
  resolveFieldSignature := (gating_matches h).resolveFieldSignature
  confine file henforces := (gating_matchesInFiles h henforces).confine file

/-! ## An example -/

/-- The resolver of a sandbox that may use the classes of another package as well. -/
def widerResolver : Resolver := { exampleResolver true with policy := .ofLists ["java/lang", "java/util"] [] }

/-- A class and a name that are accepted for the one package are confined alike under the wider policy, and the
name as well without any. -/
theorem gates_of_laxer_example :
    outcome ((exampleResolver true).confine exampleClass) .none = (.ok confinedClass, .none) ∧
      (∀ findings, (outcome (widerResolver.confine exampleClass) findings).1 = .ok confinedClass) ∧
      ∀ findings, (outcome ((exampleResolver true).trusting.resolveClass "java/util/Map") findings).1 =
        .ok "sandboxed/java/util/Map" := by
  have hwider : (exampleResolver true).Laxer widerResolver :=
    ⟨rfl, rfl, rfl, fun _ => ⟨rfl, fun _ => Policy.allows_ofLists_mono (by simp) (by simp)⟩⟩
  exact ⟨outcome_confine_example true,
    (gates_of_laxer hwider).confine exampleClass rfl confinedClass ⟨_, _, outcome_confine_example true⟩,
    (gates_of_laxer (laxer_trusting rfl)).resolveClass _ _ ⟨_, _, outcome_resolveClass_map true⟩⟩

end Resolver

end ClassSandbox
