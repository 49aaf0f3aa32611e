import ClassSandbox.Proofs.Resolution.Refusal
import ClassSandbox.Proofs.Resolution.Verdict

/-!
# Containment

What may come out of resolution when the policy applies. `Contained` lists the names: arrays of base types,
the sandbox's own classes, substitutes, and classes that the policy allows, in their private copy if they
are copied. In lazy mode there are also the names of violations, each with its violation noted.
`resolveClass_contained` says that these are all, whatever arrays are around the class.
-/

namespace ClassSandbox

/-- The names that code under a policy may have for the class inside its arrays, given the violations noted
so far. -/
inductive Contained (r : Resolver) (violations : Array Violation) : String → Prop where
  /-- An array whose element is not of the form of a class. -/
  | array {name : String} (bracket : name.toList.head? = some '[')
      (plain : ∀ dimensions inner, name ≠ objectArray dimensions inner) : Contained r violations name
  /-- A class of the sandbox itself. -/
  | own {name : String} (valid : BinaryName.IsValid name) (inside : r.sandbox.contains name) :
      Contained r violations name
  /-- The substitute of a class that opens a covert channel. -/
  | channel {channel : BinaryName} (member : channel ∈ Platform.covertChannels) :
      Contained r violations (r.settings.runtimeLang.wrap channel.simpleName)
  /-- The substitute of sources of randomness. -/
  | random : Contained r violations (r.settings.sandboxed.wrap Platform.random.text)
  /-- A class that the policy allows and that has no substitute. -/
  | permitted {name : String} (valid : BinaryName.IsValid name) (allowed : r.policy.allows name)
      (noChannel : ∀ channel ∈ Platform.covertChannels, channel.text ≠ name) :
      Contained r violations (if r.isCopied name then r.settings.sandboxed.wrap name else name)
  /-- A malformed name. -/
  | malformed {name : String} (deferred : r.settings.mode = .lazy) (invalid : ¬ BinaryName.IsValid name)
      (noted : ⟨name, r.sandbox.text⟩ ∈ violations) : Contained r violations name
  /-- The name without a class that stands for one that may not be used. -/
  | forbidden {name : String} (deferred : r.settings.mode = .lazy)
      (noted : ⟨name, r.sandbox.text⟩ ∈ violations) :
      Contained r violations (r.settings.forbidden.wrap name)

namespace Resolver

variable (r : Resolver)

theorem contained_of_isSubstitute {violations : Array Violation} {name : String}
    (h : r.isSubstitute name = true) : Contained r violations name := by
  unfold isSubstitute at h
  rw [Bool.or_eq_true] at h
  rcases h with hchannel | hrandom
  · split at hchannel
    · rename_i simple hstrip
      obtain ⟨channel, hmem, hsimple⟩ := List.any_eq_true.1 hchannel
      rw [(BinaryName.strip?_eq_some_iff.1 hstrip).2, ← eq_of_beq hsimple]
      exact .channel hmem
    · cases hchannel
  · rw [beq_iff_eq] at hrandom
    rw [(BinaryName.strip?_eq_some_iff.1 hrandom).2]
    exact .random

variable {r} {violations : Array Violation} {name : String}

theorem freshVerdict_contained (henforces : r.enforces = true) (hvalid : BinaryName.IsValid name)
    (hnoted : r.Noted violations (r.freshVerdict name).offender?) :
    Contained r violations (r.freshVerdict name).resolved := by
  unfold freshVerdict at hnoted ⊢
  split at hnoted
  · rename_i channel hfind
    exact .channel (List.mem_of_find?_eq_some hfind)
  · rename_i hfind
    split at hnoted
    · rename_i hdenied
      obtain ⟨hlazy, hmem⟩ := hnoted name rfl
      rw [if_pos hdenied]
      exact .forbidden hlazy hmem
    · rename_i hdenied
      have hallowed : r.policy.allows name = true := by simpa [henforces] using hdenied
      have hchannel : ∀ channel ∈ Platform.covertChannels, channel.text ≠ name := fun channel hmem => by
        simpa using List.find?_eq_none.1 hfind channel hmem
      have hpermitted : Contained r violations
          (if r.isCopied name then r.settings.sandboxed.wrap name else name) :=
        .permitted hvalid hallowed hchannel
      rw [if_neg hdenied]
      split
      · exact .random
      · rwa [apply_ite Verdict.resolved]

theorem freshVerdict_head?_ne (hvalid : BinaryName.IsValid name) :
    (r.freshVerdict name).resolved.toList.head? ≠ some '[' := by
  unfold freshVerdict
  split
  · exact BinaryName.head?_wrap_ne_bracket _ _
  · split
    · exact BinaryName.head?_wrap_ne_bracket _ _
    · split
      · exact BinaryName.head?_wrap_ne_bracket _ _
      · split
        · exact BinaryName.head?_wrap_ne_bracket _ _
        · exact BinaryName.head?_ne_bracket hvalid

/-- A verdict whose offender is noted gives a contained name, inside whatever arrays. -/
theorem verdict_contained (henforces : r.enforces = true)
    (hnoted : r.Noted violations (r.verdict name).offender?) :
    Contained r violations (elementClass (r.verdict name).resolved) := by
  fun_induction r.verdict name with
  | case1 name hbracket dimensions inner harray hshorter found ih =>
    obtain ⟨more, rfl⟩ := exists_succ_of_objectArray? hbracket harray
    rw [elementClass_objectArray]
    exact ih hnoted
  | case2 name hbracket hnone =>
    have hplain : ∀ dimensions inner, name ≠ objectArray dimensions inner := fun dimensions inner heq => by
      rw [objectArray?_eq_some_iff.2 heq] at hnone
      cases hnone
    rw [elementClass_of_forall_ne fun dimensions => hplain (dimensions + 1)]
    exact .array hbracket hplain
  | case3 name hbracket hinvalid =>
    obtain ⟨hlazy, hmem⟩ := hnoted name rfl
    rw [elementClass_of_head?_ne hbracket]
    exact .malformed hlazy hinvalid hmem
  | case4 name hbracket hvalid hkept =>
    rw [elementClass_of_head?_ne hbracket]
    rcases Bool.or_eq_true_iff.1 hkept with hown | hsubstitute
    · exact .own (Decidable.not_not.1 hvalid) hown
    · exact contained_of_isSubstitute r hsubstitute
  | case5 name hbracket hvalid hkept inner hstrip =>
    rw [if_pos henforces] at hnoted
    obtain ⟨hlazy, hmem⟩ := hnoted inner rfl
    rw [elementClass_of_head?_ne hbracket, (BinaryName.strip?_eq_some_iff.1 hstrip).2]
    exact .forbidden hlazy hmem
  | case6 name hbracket hvalid hkept hforbidden inner hstrip hshorter ih =>
    exact ih hnoted
  | case7 name hbracket hvalid hkept hforbidden hsandboxed =>
    rw [elementClass_of_head?_ne (freshVerdict_head?_ne (Decidable.not_not.1 hvalid))]
    exact freshVerdict_contained henforces (Decidable.not_not.1 hvalid) hnoted

/-- Under a policy, resolution gives contained names only. -/
theorem resolveClass_contained {r : Resolver} (henforces : r.enforces = true) {name resolved : String}
    {before after : Findings} (h : outcome (r.resolveClass name) before = (.ok resolved, after)) :
    Contained r after.violations (elementClass resolved) := by
  obtain ⟨rfl, hnoted⟩ := outcome_resolveClass_ok h
  exact verdict_contained henforces hnoted

/-- An array of an allowed class is an array of its private copy. -/
theorem resolveClass_contained_map :
    (exampleResolver true).enforces = true ∧
      outcome ((exampleResolver true).resolveClass "[[Ljava/util/Map;") .none =
        (.ok "[[Lsandboxed/java/util/Map;", .none) ∧
      Contained (exampleResolver true) #[] (elementClass "[[Lsandboxed/java/util/Map;") := by
  have hverdict : (exampleResolver true).verdict "[[Ljava/util/Map;" =
      ⟨"[[Lsandboxed/java/util/Map;", none⟩ := by
    rw [show "[[Ljava/util/Map;" = objectArray (1 + 1) "java/util/Map" by decide, verdict_objectArray,
      verdict_exampleResolver]
    decide
  have hresolves : outcome ((exampleResolver true).resolveClass "[[Ljava/util/Map;") .none =
      (.ok "[[Lsandboxed/java/util/Map;", .none) := by
    rw [resolveClass_eq, hverdict]
    rfl
  exact ⟨rfl, hresolves, resolveClass_contained rfl hresolves⟩

end Resolver

end ClassSandbox
