import ClassSandbox.Proofs.Name
import ClassSandbox.Proofs.Resolution.ArrayClass

/-!
# Verdicts

`verdict_eq` unfolds a verdict once. Some cases have names: arrays of classes (`verdict_objectArray`), names
that stay as they are (`verdict_of_kept`), and names that no earlier resolution has produced
(`verdict_eq_freshVerdict`). Then comes what a verdict does not depend on (`verdict_congr`): the mode and the
reporting (`verdict_eq_of_sameNames`), and, as long as there is nobody to blame, whether the policy applies
(`verdict_trusting`).
-/

namespace ClassSandbox.Resolver

variable (r : Resolver)

/-! ## Equations -/

theorem verdict_eq (name : String) :
    r.verdict name =
      if name.toList.head? = some '[' then
        match objectArray? name with
        | some (dimensions, inner) =>
          { r.verdict inner with resolved := objectArray dimensions (r.verdict inner).resolved }
        | none => ⟨name, none⟩
      else if ¬BinaryName.IsValid name then ⟨name, some name⟩
      else if r.sandbox.contains name || r.isSubstitute name then ⟨name, none⟩
      else
        match r.settings.forbidden.strip? name with
        | some inner => ⟨name, if r.enforces then some inner else none⟩
        | none =>
          match r.settings.sandboxed.strip? name with
          | some inner => r.verdict inner
          | none => r.freshVerdict name := by
  rw [verdict.eq_def]
  split
  · split <;> rename_i h <;> simp only [h]
  · split
    · rfl
    · split
      · rfl
      · cases r.settings.forbidden.strip? name with
        | some inner => rfl
        | none =>
          dsimp only
          split <;> rename_i hsandboxed <;> simp only [hsandboxed]

theorem verdict_objectArray (dimensions : Nat) (inner : String) :
    r.verdict (objectArray (dimensions + 1) inner) =
      { r.verdict inner with resolved := objectArray (dimensions + 1) (r.verdict inner).resolved } := by
  rw [verdict_eq, if_pos (head?_objectArray_succ dimensions inner), objectArray?_eq_some_iff.2 rfl]

variable {r} {name : String}

theorem verdict_of_kept (hvalid : BinaryName.IsValid name)
    (hkept : (r.sandbox.contains name || r.isSubstitute name) = true) : r.verdict name = ⟨name, none⟩ := by
  rw [verdict_eq, if_neg (BinaryName.head?_ne_bracket hvalid), if_neg (Decidable.not_not.2 hvalid),
    if_pos hkept]

/-- A name for which resolution moved a forbidden class out of the way. -/
theorem verdict_of_forbidden {inner : String} (hvalid : BinaryName.IsValid name)
    (hkept : (r.sandbox.contains name || r.isSubstitute name) = false)
    (hforbidden : r.settings.forbidden.strip? name = some inner) :
    r.verdict name = ⟨name, if r.enforces then some inner else none⟩ := by
  rw [verdict_eq, if_neg (BinaryName.head?_ne_bracket hvalid), if_neg (Decidable.not_not.2 hvalid),
    if_neg (Bool.eq_false_iff.1 hkept), hforbidden]

theorem verdict_of_sandboxed {inner : String} (hvalid : BinaryName.IsValid name)
    (hkept : (r.sandbox.contains name || r.isSubstitute name) = false)
    (hforbidden : r.settings.forbidden.strip? name = none)
    (hsandboxed : r.settings.sandboxed.strip? name = some inner) : r.verdict name = r.verdict inner := by
  rw [verdict_eq, if_neg (BinaryName.head?_ne_bracket hvalid), if_neg (Decidable.not_not.2 hvalid),
    if_neg (Bool.eq_false_iff.1 hkept), hforbidden, hsandboxed]

theorem verdict_eq_freshVerdict (hvalid : BinaryName.IsValid name)
    (hkept : (r.sandbox.contains name || r.isSubstitute name) = false)
    (hforbidden : r.settings.forbidden.strip? name = none)
    (hsandboxed : r.settings.sandboxed.strip? name = none) : r.verdict name = r.freshVerdict name := by
  rw [verdict_eq, if_neg (BinaryName.head?_ne_bracket hvalid), if_neg (Decidable.not_not.2 hvalid),
    if_neg (Bool.eq_false_iff.1 hkept), hforbidden, hsandboxed]

/-! ## Independence -/

/-- The second resolver moves classes between the same names. -/
def SameNames (r r' : Resolver) : Prop :=
  r' = { r with
    settings := { r.settings with mode := r'.settings.mode }
    policy := r'.policy, silenced := r'.silenced, enforces := r'.enforces }

/-- The second resolver forbids the same classes, or there is nobody to blame and it forbids no more. -/
def SameBlame (r r' : Resolver) (offender? : Option String) : Prop :=
  (r'.enforces = r.enforces ∧ r'.policy = r.policy) ∨
    offender? = none ∧ (r'.enforces = true →
      r.enforces = true ∧ ∀ name, r.policy.allows name = true → r'.policy.allows name = true)

theorem denied_congr {r r' : Resolver}
    (hblame : r.SameBlame r' (if r.enforces && !r.policy.allows name then some name else none)) :
    (r'.enforces && !r'.policy.allows name) = (r.enforces && !r.policy.allows name) := by
  rcases hblame with ⟨henforces, hpolicy⟩ | ⟨hnone, hlax⟩
  · rw [henforces, hpolicy]
  · cases hon : r'.enforces with
    | false =>
      split at hnone
      · cases hnone
      · rename_i hallowed
        exact (Bool.eq_false_iff.2 hallowed).symm
    | true =>
      obtain ⟨hall, hmore⟩ := hlax hon
      have hallowed : r.policy.allows name = true := by simpa [hall] using hnone
      rw [hmore name hallowed, hallowed, hall]

theorem freshVerdict_congr {r r' : Resolver} (hnames : r.SameNames r')
    (hblame : r.SameBlame r' (r.freshVerdict name).offender?) : r'.freshVerdict name = r.freshVerdict name := by
  unfold freshVerdict at hblame ⊢
  cases hfind : Platform.covertChannels.find? fun channel => channel.text == name with
  | some channel => rw [hnames]
  | none =>
    simp only [hfind] at hblame
    have hdenied : (r'.enforces && !r'.policy.allows name) = (r.enforces && !r.policy.allows name) := by
      apply denied_congr
      split at hblame
      · rename_i h
        rwa [if_pos h]
      · rename_i h
        rw [if_neg h]
        simpa only [apply_ite Verdict.offender?, ite_self] using hblame
    rw [hdenied, hnames]
    rfl

/-- A verdict depends on nothing but the names, and on the policy only through whom it blames. -/
theorem verdict_congr {r r' : Resolver} (hnames : r.SameNames r')
    (hblame : r.SameBlame r' (r.verdict name).offender?) : r'.verdict name = r.verdict name := by
  fun_induction r.verdict name with
  | case1 name hbracket dimensions inner harray hshorter found ih =>
    rw [verdict_eq, if_pos hbracket, harray]
    simp only [ih hblame, found]
  | case2 name hbracket hnone => rw [verdict_eq, if_pos hbracket, hnone]
  | case3 name hbracket hinvalid => rw [verdict_eq, if_neg hbracket, if_pos hinvalid]
  | case4 name hbracket hvalid hkept =>
    rw [hnames, verdict_eq, if_neg hbracket, if_neg hvalid]
    exact if_pos hkept
  | case5 name hbracket hvalid hkept inner hstrip =>
    have henforces : r'.enforces = r.enforces := by
      rcases hblame with ⟨henforces, -⟩ | ⟨hnone, hlax⟩
      · exact henforces
      · have hoff : r.enforces = false := by simpa using hnone
        cases hon : r'.enforces with
        | true => exact absurd (hlax hon).1 (Bool.eq_false_iff.1 hoff)
        | false => exact hoff.symm
    rw [hnames, verdict_eq, if_neg hbracket, if_neg hvalid, hstrip, henforces]
    exact if_neg hkept
  | case6 name hbracket hvalid hkept hforbidden inner hstrip hshorter ih =>
    rw [← ih hblame, verdict_eq r', hnames, if_neg hbracket, if_neg hvalid, hforbidden, hstrip]
    exact if_neg hkept
  | case7 name hbracket hvalid hkept hforbidden hsandboxed =>
    rw [← freshVerdict_congr hnames hblame, verdict_eq r', hnames, if_neg hbracket, if_neg hvalid, hforbidden,
      hsandboxed]
    exact if_neg hkept

/-- The mode and the reporting decide what happens after a verdict, and not the verdict. -/
theorem verdict_eq_of_sameNames {r r' : Resolver} (hnames : r.SameNames r') (hpolicy : r'.policy = r.policy)
    (henforces : r'.enforces = r.enforces) (name : String) : r'.verdict name = r.verdict name :=
  verdict_congr hnames (.inl ⟨henforces, hpolicy⟩)

/-- The resolver for trusted classes. -/
def trusting (r : Resolver) : Resolver := { r with enforces := false }

/-- A verdict that blames nobody is the same without a policy. -/
theorem verdict_trusting (h : (r.verdict name).offender? = none) : r.trusting.verdict name = r.verdict name :=
  verdict_congr rfl (.inr ⟨h, fun henforces => nomatch henforces⟩)

/-! ## An example -/

/-- The resolver of a sandbox that may use the classes of one package. -/
def exampleResolver (enforces : Bool) : Resolver :=
  ⟨.standard, .ofLists ["java/util"] [], ⟨"team1", by decide⟩, true, enforces⟩

theorem verdict_exampleResolver (enforces : Bool) :
    (exampleResolver enforces).verdict "java/util/Map" = ⟨"sandboxed/java/util/Map", none⟩ := by
  have hallowed : (exampleResolver enforces).policy.allows "java/util/Map" = true :=
    (Policy.allows_ofLists ["java/util"] [] ⟨"java/util/Map", by decide⟩).trans (by decide)
  rw [verdict_eq_freshVerdict (by decide) (by cases enforces <;> decide) (by cases enforces <;> decide)
    (by cases enforces <;> decide), freshVerdict, hallowed]
  cases enforces <;> decide

end ClassSandbox.Resolver
