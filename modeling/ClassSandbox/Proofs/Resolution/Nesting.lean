import Mathlib.Data.List.Basic
import ClassSandbox.Proofs.Resolution.Stability
import ClassSandbox.Proofs.Signature.RoundTrip
import ClassSandbox.Proofs.Signature.Walk

/-!
# Names of nested classes

Resolution moves a class between namespaces, but it never touches what follows the first dollar sign of a name
(`nestedPart_resolved`). So a nested class whose new name extends that of the class around it keeps the name that
it has inside (`getD_nestedName?`).

The two classes may still fare differently. When a class has been resolved, the classes that are nested in its new
name are allowed like those nested in the old one, unless the new name is that of a substitute: nothing was ever
said about a class nested in that one (`meets_resolved`).
-/

namespace ClassSandbox

/-! ## Namespaces -/

/-- The namespace has no characters that are marks of signatures or of nested classes. -/
def BinaryName.IsUnmarked (space : BinaryName) : Prop :=
  (space.text.toList.all fun c => c != '$' && !isSignatureMark c) = true

instance (space : BinaryName) : Decidable space.IsUnmarked := inferInstanceAs (Decidable (_ = true))

/-- The namespaces into which classes are moved are unmarked, and private copies are apart from forbidden
classes. -/
structure Settings.Plain (settings : Settings) : Prop where
  sandboxed : settings.sandboxed.IsUnmarked
  forbidden : settings.forbidden.IsUnmarked
  substitutes : settings.runtimeLang.IsUnmarked
  apart : BinaryName.Apart settings.sandboxed settings.forbidden

theorem Settings.plain_standard (mode : ViolationMode) : Plain { standard with mode } := by
  cases mode <;> exact ⟨by decide, by decide, by decide, by decide⟩

namespace BinaryName.IsUnmarked

variable {space : BinaryName} (h : space.IsUnmarked)

include h

theorem isSignatureMark_of_mem {c : Char} (hmem : c ∈ space.text.toList) : isSignatureMark c = false := by
  have hc := List.all_eq_true.1 h c hmem
  simpa using (Bool.and_eq_true_iff.1 hc).2

theorem ne_of_mem {c : Char} (hmem : c ∈ space.text.toList) : (c != '$') = true :=
  (Bool.and_eq_true_iff.1 (List.all_eq_true.1 h c hmem)).1

end BinaryName.IsUnmarked

/-! ## The part of a name from the first dollar sign on -/

def nestedPart (name : String) : List Char := name.toList.dropWhile (· != '$')

theorem dropWhile_append_dollar (front back : List Char) :
    (front ++ '$' :: back).dropWhile (· != '$') = front.dropWhile (· != '$') ++ '$' :: back := by
  induction front with
  | nil => rfl
  | cons c front ih =>
    by_cases hc : c = '$'
    · subst hc
      rfl
    · have hne : (c != '$') = true := by simpa using hc
      rw [List.cons_append, List.dropWhile_cons, List.dropWhile_cons, if_pos hne, if_pos hne, ih]

theorem nestedPart_nestedName (outer inner : String) :
    nestedPart (nestedName outer inner) = nestedPart outer ++ '$' :: inner.toList := by
  have htext : (nestedName outer inner).toList = outer.toList ++ '$' :: inner.toList := by
    simp [nestedName]
  rw [nestedPart, htext, dropWhile_append_dollar]
  rfl

theorem nestedPart_wrap {space : BinaryName} (h : space.IsUnmarked) (name : String) :
    nestedPart (space.wrap name) = nestedPart name := by
  have htext : (space.wrap name).toList = space.text.toList ++ '/' :: name.toList := by
    simp [BinaryName.wrap]
  rw [nestedPart, htext, List.dropWhile_append_of_pos fun c hc => h.ne_of_mem hc,
    List.dropWhile_cons_of_pos (by decide)]
  rfl

theorem nestedName_wrap (space : BinaryName) (name suffix : String) :
    nestedName (space.wrap name) suffix = space.wrap (nestedName name suffix) := by
  simp [nestedName, BinaryName.wrap, String.append_assoc]

theorem nestedName_assoc (outer inner suffix : String) :
    nestedName (nestedName outer inner) suffix = nestedName outer (nestedName inner suffix) := by
  simp [nestedName, String.append_assoc]

namespace Resolver

variable {r : Resolver} {name outer inner : String}

theorem nestedPart_simpleName : ∀ channel ∈ Platform.covertChannels, nestedPart channel.simpleName = [] := by
  decide

theorem nestedPart_channel : ∀ channel ∈ Platform.covertChannels, nestedPart channel.text = [] := by
  decide

theorem Fresh.nestedPart_eq (hplain : r.settings.Plain) {verdict : Verdict} (h : Fresh r name verdict) :
    nestedPart verdict.resolved = nestedPart name := by
  cases h with
  | channel member same =>
    rw [nestedPart_wrap hplain.substitutes, nestedPart_simpleName _ member, ← same, nestedPart_channel _ member]
  | denied _ => exact nestedPart_wrap hplain.forbidden name
  | random same =>
    rw [nestedPart_wrap hplain.sandboxed, same]
    decide
  | copied => exact nestedPart_wrap hplain.sandboxed name
  | shared => rfl

/-- Resolution keeps what is nested. -/
theorem nestedPart_resolved (hplain : r.settings.Plain) (hclass : name.toList.head? ≠ some '[') :
    nestedPart (r.verdict name).resolved = nestedPart name := by
  fun_induction r.verdict name with
  | case1 name hbracket | case2 name hbracket => exact absurd hbracket hclass
  | case3 | case4 | case5 => rfl
  | case6 name hbracket hvalid hkept hforbidden inner hstrip hshorter ih =>
    have hname := (BinaryName.strip?_eq_some_iff.1 hstrip).2
    have hinner := BinaryName.isValid_wrap_iff.1 (hname ▸ Decidable.not_not.1 hvalid)
    rw [ih (BinaryName.head?_ne_bracket hinner), hname, nestedPart_wrap hplain.sandboxed]
  | case7 => exact (fresh_freshVerdict r _).nestedPart_eq hplain

theorem head?_nestedName_ne (hclass : outer.toList.head? ≠ some '[') (inner : String) :
    (nestedName outer inner).toList.head? ≠ some '[' := by
  rw [nestedName]
  cases houter : outer.toList with
  | nil => simp [houter]
  | cons c rest =>
    rw [houter] at hclass
    simpa [houter] using hclass

/-- A projection keeps its name. -/
theorem getD_nestedName? (hplain : r.settings.Plain) (hclass : outer.toList.head? ≠ some '[') (inner : String) :
    (nestedName? (r.verdict outer).resolved (r.verdict (nestedName outer inner)).resolved).getD inner = inner := by
  cases hfound : nestedName? (r.verdict outer).resolved (r.verdict (nestedName outer inner)).resolved with
  | none => rfl
  | some found =>
    have hparts := congrArg nestedPart (nestedName?_eq_some_iff.1 hfound)
    rw [nestedPart_resolved hplain (head?_nestedName_ne hclass inner), nestedPart_nestedName,
      nestedPart_nestedName, nestedPart_resolved hplain hclass] at hparts
    have hinner := (List.cons.inj (List.append_cancel_left hparts)).2
    exact (String.toList_inj.1 hinner).symm

/-! ## Names in signatures -/

theorem isValid_of_isClassIdentifier (h : IsClassIdentifier name) : BinaryName.IsValid name := by
  refine BinaryName.isValid_iff.2 fun segment hsegment => ⟨?_, fun c hc => ?_⟩
  · rintro rfl
    exact absurd rfl (List.any_eq_false.1 h.2 [] hsegment)
  · obtain ⟨hmem, hslash⟩ := BinaryName.mem_of_mem_splitOn hsegment hc
    have hmark := h.1.2 c hmem
    simp only [isSignatureMark, Bool.or_eq_false_iff] at hmark
    simp [isNameMark, hmark, hslash]

theorem isClassIdentifier_of_isValid (hvalid : BinaryName.IsValid name)
    (hmarks : ∀ c ∈ name.toList, isSignatureMark c = false) : IsClassIdentifier name := by
  refine ⟨⟨BinaryName.ne_empty hvalid, hmarks⟩, List.any_eq_false.2 fun segment hsegment => ?_⟩
  simpa using (BinaryName.isValid_iff.1 hvalid segment hsegment).1

theorem mem_toList_wrap_iff {space : BinaryName} {c : Char} :
    c ∈ (space.wrap name).toList ↔ c ∈ space.text.toList ∨ c = '/' ∨ c ∈ name.toList := by
  simp [BinaryName.wrap]

theorem isSignatureMark_of_mem_wrap {space : BinaryName} (hspace : space.IsUnmarked)
    (hmarks : ∀ c ∈ name.toList, isSignatureMark c = false) :
    ∀ c ∈ (space.wrap name).toList, isSignatureMark c = false := by
  intro c hc
  rcases mem_toList_wrap_iff.1 hc with hc | rfl | hc
  · exact hspace.isSignatureMark_of_mem hc
  · rfl
  · exact hmarks c hc

theorem all_simpleName : ∀ channel ∈ Platform.covertChannels,
    (channel.simpleName.toList.all fun c => !isSignatureMark c) = true := by
  decide

theorem Fresh.isSignatureMark_of_mem (hplain : r.settings.Plain) {verdict : Verdict} (h : Fresh r name verdict)
    (hmarks : ∀ c ∈ name.toList, isSignatureMark c = false) :
    ∀ c ∈ verdict.resolved.toList, isSignatureMark c = false := by
  cases h with
  | channel member _ =>
    refine isSignatureMark_of_mem_wrap hplain.substitutes fun c hc => ?_
    simpa using List.all_eq_true.1 (all_simpleName _ member) c hc
  | denied _ => exact isSignatureMark_of_mem_wrap hplain.forbidden hmarks
  | random _ =>
    refine isSignatureMark_of_mem_wrap hplain.sandboxed fun c hc => ?_
    have hall : (Platform.random.text.toList.all fun c => !isSignatureMark c) = true := by decide
    simpa using List.all_eq_true.1 hall c hc
  | copied => exact isSignatureMark_of_mem_wrap hplain.sandboxed hmarks
  | shared => exact hmarks

theorem isSignatureMark_resolved (hplain : r.settings.Plain)
    (hmarks : ∀ c ∈ name.toList, isSignatureMark c = false) :
    ∀ c ∈ (r.verdict name).resolved.toList, isSignatureMark c = false := by
  fun_induction r.verdict name with
  | case1 name hbracket | case2 name hbracket => cases hmarks _ (List.mem_of_head? hbracket)
  | case3 | case4 | case5 => exact hmarks
  | case6 name hbracket hvalid hkept hforbidden inner hstrip hshorter ih =>
    have hname := (BinaryName.strip?_eq_some_iff.1 hstrip).2
    refine ih fun c hc => hmarks c ?_
    rw [hname, mem_toList_wrap_iff]
    exact .inr (.inr hc)
  | case7 => exact (fresh_freshVerdict r _).isSignatureMark_of_mem hplain hmarks

/-- A name that may stand in a signature turns into another one. -/
theorem isClassIdentifier_resolved (hplain : r.settings.Plain) (h : IsClassIdentifier name) :
    IsClassIdentifier (r.verdict name).resolved :=
  isClassIdentifier_of_isValid (isValid_resolved (isValid_of_isClassIdentifier h))
    (isSignatureMark_resolved hplain h.1.2)

/-! ## Classes nested in resolved ones -/

/-- A name to blame that only resolved names lead to: it is that of a class nested in a substitute, or in some
other resolved class, if the package of the sandbox overlaps with the private copies. -/
def BlamesLater (r : Resolver) (offender : String) : Prop :=
  ∃ outer inner, r.verdict outer = ⟨outer, none⟩ ∧
    (r.isSubstitute outer = true ∨ ¬BinaryName.Apart r.settings.sandboxed r.sandbox) ∧
    (r.verdict (nestedName outer inner)).offender? = some offender

/-- Of the classes nested in the second class no others are to blame than of those nested in the first one. -/
def Meets (r : Resolver) (outer outer' : String) : Prop :=
  ∀ inner, (r.verdict (nestedName outer inner)).offender? = none →
    ∀ offender, (r.verdict (nestedName outer' inner)).offender? = some offender → r.BlamesLater offender

theorem meets_refl (r : Resolver) (outer : String) : r.Meets outer outer := fun _ hnone _ hsome => by
  rw [hnone] at hsome
  cases hsome

theorem Meets.nested {outer' : String} (h : r.Meets outer outer') (inner : String) :
    r.Meets (nestedName outer inner) (nestedName outer' inner) := by
  intro suffix
  rw [nestedName_assoc, nestedName_assoc]
  exact h (nestedName inner suffix)

theorem isValid_of_offender? (hclass : name.toList.head? ≠ some '[') (h : (r.verdict name).offender? = none) :
    BinaryName.IsValid name := by
  rw [verdict_eq, if_neg hclass] at h
  by_cases hvalid : BinaryName.IsValid name
  · exact hvalid
  · rw [if_pos hvalid] at h
    cases h

theorem isSubstitute_eq_false (hplain : r.settings.Plain) (h : nestedPart name ≠ []) :
    r.isSubstitute name = false := by
  rw [isSubstitute, Bool.or_eq_false_iff]
  constructor
  · split
    · rename_i simple hstrip
      rw [List.any_eq_false]
      rintro channel hmem hsame
      have hname := (BinaryName.strip?_eq_some_iff.1 hstrip).2
      rw [← eq_of_beq hsame] at hname
      rw [hname, nestedPart_wrap hplain.substitutes, nestedPart_simpleName channel hmem] at h
      exact h rfl
    · rfl
  · rw [beq_eq_false_iff_ne]
    intro hstrip
    have hrandom : nestedPart Platform.random.text = [] := by decide
    rw [(BinaryName.strip?_eq_some_iff.1 hstrip).2, nestedPart_wrap hplain.sandboxed, hrandom] at h
    exact h rfl

/-- A class nested in a private copy fares like the class of which that is a copy. -/
theorem verdict_wrap_nestedName (hplain : r.settings.Plain)
    (hapart : BinaryName.Apart r.settings.sandboxed r.sandbox)
    (hvalid : BinaryName.IsValid (nestedName outer inner)) :
    r.verdict (r.settings.sandboxed.wrap (nestedName outer inner)) = r.verdict (nestedName outer inner) := by
  have hnested : nestedPart (r.settings.sandboxed.wrap (nestedName outer inner)) ≠ [] := by
    rw [nestedPart_wrap hplain.sandboxed, nestedPart_nestedName]
    simp
  have hkept : (r.sandbox.contains (r.settings.sandboxed.wrap (nestedName outer inner)) ||
      r.isSubstitute (r.settings.sandboxed.wrap (nestedName outer inner))) = false := by
    rw [BinaryName.contains, hapart.symm.strip?_wrap, isSubstitute_eq_false hplain hnested]
    rfl
  exact verdict_of_sandboxed (BinaryName.isValid_wrap_iff.2 hvalid) hkept (hplain.apart.symm.strip?_wrap _)
    (BinaryName.strip?_wrap _ hvalid)

theorem meets_of_isSubstitute {name' : String} (hvalid : BinaryName.IsValid name')
    (hsubstitute : r.isSubstitute name' = true) : r.Meets name name' := fun inner _ _ hsome =>
  ⟨name', inner, verdict_of_kept hvalid (by rw [hsubstitute, Bool.or_true]), .inl hsubstitute, hsome⟩

theorem Fresh.meets (hplain : r.settings.Plain) (hapart : BinaryName.Apart r.settings.sandboxed r.sandbox)
    {verdict : Verdict} (h : Fresh r name verdict) (hvalid : BinaryName.IsValid name)
    (hnone : verdict.offender? = none) : r.Meets name verdict.resolved := by
  have hresolved := h.isValid hvalid
  cases h with
  | channel member _ => exact meets_of_isSubstitute hresolved (isSubstitute_channel member)
  | denied _ => cases hnone
  | random _ => exact meets_of_isSubstitute hresolved isSubstitute_random
  | copied =>
    intro inner hallowed offender hsome
    have hnested := isValid_of_offender? (head?_nestedName_ne (BinaryName.head?_ne_bracket hvalid) inner) hallowed
    rw [nestedName_wrap, verdict_wrap_nestedName hplain hapart hnested, hallowed] at hsome
    cases hsome
  | shared => exact meets_refl r name

/-- The classes nested in a resolved class are allowed like those nested in the original one, unless it is a
substitute. -/
theorem meets_resolved (hplain : r.settings.Plain) (hclass : name.toList.head? ≠ some '[')
    (h : (r.verdict name).offender? = none) : r.Meets name (r.verdict name).resolved := by
  by_cases hapart : BinaryName.Apart r.settings.sandboxed r.sandbox
  · fun_induction r.verdict name with
    | case1 name hbracket | case2 name hbracket => exact absurd hbracket hclass
    | case3 => cases h
    | case4 | case5 => exact meets_refl r _
    | case6 name hbracket hvalid hkept hforbidden inner hstrip hshorter ih =>
      obtain rfl := (BinaryName.strip?_eq_some_iff.1 hstrip).2
      have hinner := BinaryName.isValid_wrap_iff.1 (Decidable.not_not.1 hvalid)
      intro suffix hallowed
      rw [nestedName_wrap] at hallowed
      have hnested := BinaryName.isValid_wrap_iff.1
        (isValid_of_offender? (BinaryName.head?_wrap_ne_bracket _ _) hallowed)
      rw [verdict_wrap_nestedName hplain hapart hnested] at hallowed
      exact ih (BinaryName.head?_ne_bracket hinner) h suffix hallowed
    | case7 name hbracket hvalid hkept hforbidden hsandboxed =>
      exact (fresh_freshVerdict r name).meets hplain hapart (Decidable.not_not.1 hvalid) h
  · intro inner _ offender hsome
    have hstays := stays_verdict hplain.apart name
    rw [h] at hstays
    exact ⟨_, inner, hstays.elim id id, .inr hapart, hsome⟩

end Resolver

end ClassSandbox
