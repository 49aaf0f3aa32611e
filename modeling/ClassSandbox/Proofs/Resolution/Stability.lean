import ClassSandbox.Proofs.Resolution.Verdict

/-!
# Resolved names

What a verdict makes of a name stays as it is under the next verdict, as long as the namespaces for private
copies and for forbidden classes are apart (`stays_verdict`). There is then no one new to blame: the offender,
if any, is the one that the first verdict blamed.

`Fresh` lists how a class may fare whose name no earlier resolution has produced.
-/

namespace ClassSandbox.Resolver

variable {r : Resolver} {name : String}

/-! ## Fresh names -/

/-- The verdicts on a class name that no earlier resolution has produced. -/
inductive Fresh (r : Resolver) (name : String) : Verdict → Prop where
  | channel {channel : BinaryName} (member : channel ∈ Platform.covertChannels) (same : channel.text = name) :
      Fresh r name ⟨r.settings.runtimeLang.wrap channel.simpleName, none⟩
  | denied (enforces : r.enforces = true) :
      Fresh r name ⟨r.settings.forbidden.wrap name, some name⟩
  | random (same : name = Platform.secureRandom.text) :
      Fresh r name ⟨r.settings.sandboxed.wrap Platform.random.text, none⟩
  | copied : Fresh r name ⟨r.settings.sandboxed.wrap name, none⟩
  | shared : Fresh r name ⟨name, none⟩

theorem fresh_freshVerdict (r : Resolver) (name : String) : Fresh r name (r.freshVerdict name) := by
  unfold freshVerdict
  split
  · rename_i channel hfind
    exact .channel (List.mem_of_find?_eq_some hfind) (by simpa using List.find?_some hfind)
  · split
    · rename_i hdenied
      exact .denied (Bool.and_eq_true_iff.1 hdenied).1
    · split
      · rename_i hsame
        exact .random hsame
      · split
        · exact .copied
        · exact .shared

theorem isValid_simpleName : ∀ channel ∈ Platform.covertChannels, BinaryName.IsValid channel.simpleName := by
  decide

theorem Fresh.isValid {verdict : Verdict} (h : Fresh r name verdict) (hvalid : BinaryName.IsValid name) :
    BinaryName.IsValid verdict.resolved := by
  cases h with
  | channel member _ => exact BinaryName.isValid_wrap_iff.2 (isValid_simpleName _ member)
  | denied _ => exact BinaryName.isValid_wrap_iff.2 hvalid
  | random _ => exact BinaryName.isValid_wrap_iff.2 Platform.random.valid
  | copied => exact BinaryName.isValid_wrap_iff.2 hvalid
  | shared => exact hvalid

theorem isValid_resolved (hvalid : BinaryName.IsValid name) : BinaryName.IsValid (r.verdict name).resolved := by
  fun_induction r.verdict name with
  | case1 name hbracket | case2 name hbracket => exact absurd hbracket (BinaryName.head?_ne_bracket hvalid)
  | case3 | case4 | case5 => exact hvalid
  | case6 name hbracket _ hkept hforbidden inner hstrip hshorter ih =>
    exact ih (BinaryName.isValid_wrap_iff.1 ((BinaryName.strip?_eq_some_iff.1 hstrip).2 ▸ hvalid))
  | case7 => exact (fresh_freshVerdict r _).isValid hvalid

theorem resolved_ne_empty (hne : name ≠ "") : (r.verdict name).resolved ≠ "" := by
  fun_induction r.verdict name with
  | case1 name hbracket dimensions inner harray hshorter found ih =>
    intro h
    have := congrArg String.toList h
    simp [objectArray] at this
  | case2 | case3 | case4 | case5 => exact hne
  | case6 name hbracket hvalid hkept hforbidden inner hstrip hshorter ih =>
    exact ih (BinaryName.strip?_eq_some_iff.1 hstrip).1
  | case7 name hbracket hvalid hkept hforbidden hsandboxed =>
    exact BinaryName.ne_empty ((fresh_freshVerdict r name).isValid (Decidable.not_not.1 hvalid))

/-! ## Substitutes -/

theorem isSubstitute_channel {channel : BinaryName} (hmem : channel ∈ Platform.covertChannels) :
    r.isSubstitute (r.settings.runtimeLang.wrap channel.simpleName) = true := by
  have hany : (Platform.covertChannels.any fun other => other.simpleName == channel.simpleName) = true :=
    List.any_eq_true.2 ⟨channel, hmem, beq_self_eq_true _⟩
  rw [isSubstitute, BinaryName.strip?_wrap _ (isValid_simpleName channel hmem)]
  simp [hany]

theorem isSubstitute_random : r.isSubstitute (r.settings.sandboxed.wrap Platform.random.text) = true := by
  rw [isSubstitute, BinaryName.strip?_wrap _ Platform.random.valid]
  simp

/-! ## Resolved names stay -/

/-- The name is kept, and at most one given offender is to blame. -/
def Stays (r : Resolver) (name : String) (offender? : Option String) : Prop :=
  r.verdict name = ⟨name, none⟩ ∨ r.verdict name = ⟨name, offender?⟩

theorem stays_of_kept {offender? : Option String} (hvalid : BinaryName.IsValid name)
    (hkept : (r.sandbox.contains name || r.isSubstitute name) = true) : r.Stays name offender? :=
  .inl (verdict_of_kept hvalid hkept)

variable (hapart : BinaryName.Apart r.settings.sandboxed r.settings.forbidden)

include hapart

theorem stays_freshVerdict (hvalid : BinaryName.IsValid name)
    (hkept : (r.sandbox.contains name || r.isSubstitute name) = false)
    (hforbidden : r.settings.forbidden.strip? name = none)
    (hsandboxed : r.settings.sandboxed.strip? name = none) :
    r.Stays (r.freshVerdict name).resolved (r.freshVerdict name).offender? := by
  have hverdict := verdict_eq_freshVerdict hvalid hkept hforbidden hsandboxed
  have hfresh := fresh_freshVerdict r name
  have hresolved := hfresh.isValid hvalid
  generalize r.freshVerdict name = verdict at hverdict hfresh hresolved
  cases hfresh with
  | channel member _ => exact stays_of_kept hresolved (by rw [isSubstitute_channel member, Bool.or_true])
  | denied henforces =>
    cases hagain : r.sandbox.contains (r.settings.forbidden.wrap name) ||
        r.isSubstitute (r.settings.forbidden.wrap name) with
    | true => exact stays_of_kept hresolved hagain
    | false =>
      right
      rw [verdict_of_forbidden hresolved hagain (BinaryName.strip?_wrap _ hvalid), if_pos henforces]
  | random _ => exact stays_of_kept hresolved (by rw [isSubstitute_random, Bool.or_true])
  | copied =>
    cases hagain : r.sandbox.contains (r.settings.sandboxed.wrap name) ||
        r.isSubstitute (r.settings.sandboxed.wrap name) with
    | true => exact stays_of_kept hresolved hagain
    | false =>
      right
      rw [verdict_of_sandboxed hresolved hagain (hapart.symm.strip?_wrap name)
        (BinaryName.strip?_wrap _ hvalid), hverdict]
  | shared => exact .inr hverdict

/-- The verdict on a resolved name is to keep it. -/
theorem stays_verdict (name : String) : r.Stays (r.verdict name).resolved (r.verdict name).offender? := by
  fun_induction r.verdict name with
  | case1 name hbracket dimensions inner harray hshorter found ih =>
    obtain ⟨more, rfl⟩ := exists_succ_of_objectArray? hbracket harray
    unfold Stays
    rw [verdict_objectArray]
    rcases ih with h | h <;> rw [h]
    · exact .inl rfl
    · exact .inr rfl
  | case2 name hbracket hnone =>
    left
    rw [verdict_eq, if_pos hbracket, hnone]
  | case3 name hbracket hinvalid =>
    right
    rw [verdict_eq, if_neg hbracket, if_pos hinvalid]
  | case4 name hbracket hvalid hkept => exact stays_of_kept (Decidable.not_not.1 hvalid) hkept
  | case5 name hbracket hvalid hkept inner hstrip =>
    right
    exact verdict_of_forbidden (Decidable.not_not.1 hvalid) (Bool.eq_false_iff.2 hkept) hstrip
  | case6 name hbracket hvalid hkept hforbidden inner hstrip hshorter ih => exact ih
  | case7 name hbracket hvalid hkept hforbidden hsandboxed =>
    exact stays_freshVerdict hapart (Decidable.not_not.1 hvalid) (Bool.eq_false_iff.2 hkept) hforbidden
      hsandboxed

end ClassSandbox.Resolver
