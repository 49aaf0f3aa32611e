import ClassSandbox.Proofs.Resolution.Elements
import ClassSandbox.Proofs.Resolution.Refusal
import ClassSandbox.Proofs.Resolution.Stability

/-!
# Names that resolution merges

With namespaces as separate as the standard ones, two different class names turn into the same one in two ways
only (`mayMerge_of_resolved_eq`): one of them has the form of those that resolution gives, since these are
resolved as if they had been resolved before, or they are the two sources of randomness, which share a
substitute. Names of arrays turn into the same one only if they are the same arrays around two such classes
(`exists_merges_of_resolved_eq`), and so do the descriptors of fields (`fieldsMerge_of_resolveDescriptor`). Those
of methods have to agree place by place, up to such classes (`methodsMerge_of_resolveMethodDescriptor`).
-/

namespace ClassSandbox

/-- The namespaces into which classes are moved have no names in common. -/
structure Settings.Separate (settings : Settings) : Prop where
  forbidden : BinaryName.Apart settings.sandboxed settings.forbidden
  substitutes : BinaryName.Apart settings.sandboxed settings.runtimeLang
  denials : BinaryName.Apart settings.forbidden settings.runtimeLang

theorem Settings.separate_standard (mode : ViolationMode) : Separate { standard with mode } := by
  cases mode <;> exact ⟨by decide, by decide, by decide⟩

namespace Resolver

variable {r : Resolver} {x y : String}

/-- A name of the form of those that resolution gives: a substitute, or a name in one of the namespaces into
which it moves classes. -/
def isProduced (r : Resolver) (name : String) : Bool :=
  r.isSubstitute name || r.settings.sandboxed.contains name || r.settings.forbidden.contains name

/-- The two sources of randomness, of which one becomes the other. -/
def RandomSources (x y : String) : Prop :=
  x = Platform.secureRandom.text ∧ y = Platform.random.text ∨
    x = Platform.random.text ∧ y = Platform.secureRandom.text

/-- Two class names of which resolution may make one. -/
def MayMerge (r : Resolver) (x y : String) : Prop :=
  r.isProduced x = true ∨ r.isProduced y = true ∨ RandomSources x y

/-! ## Class names -/

/-- A name that no resolution gives fares like a fresh one, even in the sandbox. -/
theorem fresh_verdict (hvalid : BinaryName.IsValid x) (hproduced : r.isProduced x = false) :
    Fresh r x (r.verdict x) := by
  simp only [isProduced, Bool.or_eq_false_iff, BinaryName.contains, Option.isSome_eq_false_iff,
    Option.isNone_iff_eq_none] at hproduced
  obtain ⟨⟨hsubstitute, hsandboxed⟩, hforbidden⟩ := hproduced
  cases hown : r.sandbox.contains x with
  | true =>
    rw [verdict_of_kept hvalid (by rw [hown, Bool.true_or])]
    exact .shared
  | false =>
    rw [verdict_eq_freshVerdict hvalid (by rw [hown, hsubstitute, Bool.or_false]) hforbidden hsandboxed]
    exact fresh_freshVerdict r x

/-- A class that is moved gets a name of the form of those that resolution gives. -/
theorem Fresh.isProduced {verdict : Verdict} (h : Fresh r x verdict) (hvalid : BinaryName.IsValid x)
    (hmoved : verdict.resolved ≠ x) : r.isProduced verdict.resolved = true := by
  cases h with
  | channel member _ => simp [Resolver.isProduced, isSubstitute_channel member]
  | denied _ => simp [Resolver.isProduced, BinaryName.contains, BinaryName.strip?_wrap _ hvalid]
  | random _ => simp [Resolver.isProduced, isSubstitute_random]
  | copied => simp [Resolver.isProduced, BinaryName.contains, BinaryName.strip?_wrap _ hvalid]
  | shared => exact absurd rfl hmoved

theorem simpleName_injective : ∀ channel ∈ Platform.covertChannels, ∀ other ∈ Platform.covertChannels,
    channel.simpleName = other.simpleName → channel = other := by
  decide

/-- Two classes that are moved to the same name, into the same namespace then. -/
theorem Fresh.eq_or_randomSources (hseparate : r.settings.Separate) {verdict verdict' : Verdict}
    (hx : Fresh r x verdict) (hy : Fresh r y verdict') (hresolved : verdict.resolved = verdict'.resolved)
    (hmoved : verdict.resolved ≠ x) (hmoved' : verdict'.resolved ≠ y) : x = y ∨ RandomSources x y := by
  cases hx with
  | channel member same =>
    cases hy with
    | channel member' same' =>
      left
      rw [← same, ← same', simpleName_injective _ member _ member' (BinaryName.wrap_injective _ hresolved)]
    | denied _ => exact absurd hresolved (hseparate.denials.symm.wrap_ne_wrap _ _)
    | random _ => exact absurd hresolved (hseparate.substitutes.symm.wrap_ne_wrap _ _)
    | copied => exact absurd hresolved (hseparate.substitutes.symm.wrap_ne_wrap _ _)
    | shared => exact absurd rfl hmoved'
  | denied _ =>
    cases hy with
    | channel _ _ => exact absurd hresolved (hseparate.denials.wrap_ne_wrap _ _)
    | denied _ => exact .inl (BinaryName.wrap_injective _ hresolved)
    | random _ => exact absurd hresolved (hseparate.forbidden.symm.wrap_ne_wrap _ _)
    | copied => exact absurd hresolved (hseparate.forbidden.symm.wrap_ne_wrap _ _)
    | shared => exact absurd rfl hmoved'
  | random same =>
    cases hy with
    | channel _ _ => exact absurd hresolved (hseparate.substitutes.wrap_ne_wrap _ _)
    | denied _ => exact absurd hresolved (hseparate.forbidden.wrap_ne_wrap _ _)
    | random same' => exact .inl (same.trans same'.symm)
    | copied => exact .inr (.inl ⟨same, (BinaryName.wrap_injective _ hresolved).symm⟩)
    | shared => exact absurd rfl hmoved'
  | copied =>
    cases hy with
    | channel _ _ => exact absurd hresolved (hseparate.substitutes.wrap_ne_wrap _ _)
    | denied _ => exact absurd hresolved (hseparate.forbidden.wrap_ne_wrap _ _)
    | random same' => exact .inr (.inr ⟨BinaryName.wrap_injective _ hresolved, same'⟩)
    | copied => exact .inl (BinaryName.wrap_injective _ hresolved)
    | shared => exact absurd rfl hmoved'
  | shared => exact absurd rfl hmoved

theorem mayMerge_of_resolved_eq (hseparate : r.settings.Separate) (hx : BinaryName.IsValid x)
    (hy : BinaryName.IsValid y) (hne : x ≠ y) (hresolved : (r.verdict x).resolved = (r.verdict y).resolved) :
    r.MayMerge x y := by
  cases hproduced : r.isProduced x with
  | true => exact .inl hproduced
  | false =>
    cases hproduced' : r.isProduced y with
    | true => exact .inr (.inl hproduced')
    | false =>
      have hfresh := fresh_verdict hx hproduced
      have hfresh' := fresh_verdict hy hproduced'
      have hmoved : (r.verdict x).resolved ≠ x := fun hkept => by
        have := hfresh'.isProduced hy (by rw [← hresolved, hkept]; exact hne)
        rw [← hresolved, hkept, hproduced] at this
        cases this
      have hmoved' : (r.verdict y).resolved ≠ y := fun hkept => by
        have := hfresh.isProduced hx hmoved
        rw [hresolved, hkept, hproduced'] at this
        cases this
      rcases hfresh.eq_or_randomSources hseparate hfresh' hresolved hmoved hmoved' with h | h
      · exact absurd h hne
      · exact .inr (.inr h)

/-! ## Arrays -/

/-- A text that is not a class name, nor an array with one in it, stays as it is. -/
theorem resolved_of_not_isValid (hinvalid : ¬BinaryName.IsValid x)
    (helement : ∀ dimensions inner, x ≠ objectArray (dimensions + 1) inner) : (r.verdict x).resolved = x := by
  by_cases hbracket : x.toList.head? = some '['
  · have hnone : objectArray? x = none := by
      rw [Option.eq_none_iff_forall_ne_some]
      rintro ⟨dimensions, inner⟩ harray
      obtain ⟨more, rfl⟩ := exists_succ_of_objectArray? hbracket harray
      exact helement more inner (objectArray?_eq_some_iff.1 harray)
    rw [verdict_eq, if_pos hbracket, hnone]
  · rw [verdict_eq, if_neg hbracket, if_pos hinvalid]

theorem resolved_ne_objectArray (helement : ∀ dimensions inner, x ≠ objectArray (dimensions + 1) inner)
    (dimensions : Nat) (inner : String) : (r.verdict x).resolved ≠ objectArray (dimensions + 1) inner := by
  by_cases hvalid : BinaryName.IsValid x
  · intro h
    have hhead := BinaryName.head?_ne_bracket (isValid_resolved (r := r) hvalid)
    rw [h] at hhead
    exact hhead (head?_objectArray_succ dimensions inner)
  · rw [resolved_of_not_isValid hvalid helement]
    exact helement dimensions inner

/-- The name of the array around the array, and so on, around a class. -/
def nestedArray (extraDims : List Nat) (inner : String) : String :=
  extraDims.foldr (fun extra inner => objectArray (extra + 1) inner) inner

/-- Two classes of which resolution makes one. -/
structure Merges (r : Resolver) (x y : BinaryName) : Prop where
  differ : x ≠ y
  same : (r.verdict x.text).resolved = (r.verdict y.text).resolved
  may : r.MayMerge x.text y.text

theorem merges_of_resolved_eq (hseparate : r.settings.Separate) {x y : BinaryName} (hne : x ≠ y)
    (hresolved : (r.verdict x.text).resolved = (r.verdict y.text).resolved) : r.Merges x y := by
  have htexts : x.text ≠ y.text := by
    obtain ⟨xText, _⟩ := x
    obtain ⟨yText, _⟩ := y
    simpa using hne
  exact ⟨hne, hresolved, mayMerge_of_resolved_eq hseparate x.valid y.valid htexts hresolved⟩

/-- Names that turn into the same one are the same arrays around classes that do. -/
theorem exists_merges_of_resolved_eq (hseparate : r.settings.Separate) (hne : x ≠ y)
    (hresolved : (r.verdict x).resolved = (r.verdict y).resolved) :
    ∃ extraDims xClass yClass, x = nestedArray extraDims xClass.text ∧ y = nestedArray extraDims yClass.text ∧
      r.Merges xClass yClass := by
  induction hlength : x.length using Nat.strongRecOn generalizing x y with
  | ind length ih =>
    subst hlength
    by_cases hx : ∃ dimensions inner, x = objectArray (dimensions + 1) inner <;>
      by_cases hy : ∃ dimensions inner, y = objectArray (dimensions + 1) inner
    · obtain ⟨dimensions, inner, rfl⟩ := hx
      obtain ⟨dimensions', inner', rfl⟩ := hy
      rw [verdict_objectArray, verdict_objectArray] at hresolved
      obtain ⟨hdimensions, hinner⟩ := objectArray_inj.1 hresolved
      obtain rfl : dimensions = dimensions' := Nat.succ.inj hdimensions
      have hshorter : inner.length < (objectArray (dimensions + 1) inner).length :=
        length_of_objectArray? (objectArray?_eq_some_iff.2 rfl)
      have hdiffer : inner ≠ inner' := fun h => hne (by rw [h])
      obtain ⟨extraDims, xClass, yClass, rfl, rfl, hmerges⟩ := ih inner.length hshorter hdiffer hinner rfl
      exact ⟨dimensions :: extraDims, xClass, yClass, rfl, rfl, hmerges⟩
    · obtain ⟨dimensions, inner, rfl⟩ := hx
      simp only [not_exists] at hy
      rw [verdict_objectArray] at hresolved
      exact absurd hresolved.symm (resolved_ne_objectArray hy _ _)
    · obtain ⟨dimensions, inner, rfl⟩ := hy
      simp only [not_exists] at hx
      rw [verdict_objectArray] at hresolved
      exact absurd hresolved (resolved_ne_objectArray hx _ _)
    · simp only [not_exists] at hx hy
      by_cases hvalid : BinaryName.IsValid x <;> by_cases hvalid' : BinaryName.IsValid y
      · refine ⟨[], ⟨x, hvalid⟩, ⟨y, hvalid'⟩, rfl, rfl, merges_of_resolved_eq hseparate ?_ hresolved⟩
        simpa using hne
      · rw [resolved_of_not_isValid hvalid' hy] at hresolved
        exact absurd (hresolved ▸ isValid_resolved hvalid) hvalid'
      · rw [resolved_of_not_isValid hvalid hx] at hresolved
        exact absurd (hresolved ▸ isValid_resolved hvalid') hvalid
      · rw [resolved_of_not_isValid hvalid hx, resolved_of_not_isValid hvalid' hy] at hresolved
        exact absurd hresolved hne

theorem eq_of_mayGive_resolveClass {resolved : String} (h : MayGive (r.resolveClass x) resolved) :
    resolved = (r.verdict x).resolved := by
  obtain ⟨_, _, h⟩ := h
  exact (outcome_resolveClass_ok h).1

/-! ## Descriptors -/

/-- The two descriptors have the same brackets, around the same arrays of two classes of which resolution makes
one. -/
def FieldsMerge (r : Resolver) (descriptor descriptor' : String) : Prop :=
  ∃ dimensions extraDims x y, descriptor = objectArray dimensions (nestedArray extraDims x.text) ∧
    descriptor' = objectArray dimensions (nestedArray extraDims y.text) ∧ r.Merges x y

/-- Types that are the same, or else merge. -/
def TypesAgree (r : Resolver) (type type' : FieldType BinaryName) : Prop :=
  type = type' ∨ r.FieldsMerge (String.ofList type.render) (String.ofList type'.render)

/-- The descriptors of methods with as many parameters, and types that agree in every place but not in all of them
without merging. -/
def MethodsMerge (r : Resolver) (descriptor descriptor' : String) : Prop :=
  ∃ parsed parsed' : MethodDescriptor BinaryName, parsed ≠ parsed' ∧
    descriptor = String.ofList parsed.render ∧ descriptor' = String.ofList parsed'.render ∧
    List.Forall₂ r.TypesAgree parsed.parameters parsed'.parameters ∧
    Option.Rel r.TypesAgree parsed.result parsed'.result

theorem exists_of_resolveElement_eq {text text' : List Char} {resolved : String} (hne : text ≠ text')
    (h : MayGive (r.resolveElement text) resolved) (h' : MayGive (r.resolveElement text') resolved) :
    ∃ x y, text = 'L' :: x.toList ++ [';'] ∧ text' = 'L' :: y.toList ++ [';'] ∧ x ≠ y ∧
      (r.verdict x).resolved = (r.verdict y).resolved := by
  -- A text without a class is not one whose class has been resolved.
  have hplain : ∀ {text text'}, IsPlain text → MayGive (r.resolveElement text) resolved →
      MayGive (r.resolveElement text') resolved → text = text' := by
    intro text text' hplain h h'
    rw [resolveElement_of_plain r hplain] at h
    obtain ⟨_, -, h⟩ := mayGive_bind h
    have hresolved := mayGive_pure h
    rcases isPlain_or_exists text' with hplain' | ⟨y, hy, rfl⟩
    · rw [resolveElement_of_plain r hplain'] at h'
      obtain ⟨_, -, h'⟩ := mayGive_bind h'
      exact String.ofList_injective (hresolved.trans (mayGive_pure h').symm)
    · rw [resolveElement_of_class r hy] at h'
      obtain ⟨_, hclass, h'⟩ := mayGive_bind h'
      obtain rfl := eq_of_mayGive_resolveClass hclass
      have htext := String.ofList_injective (hresolved.trans (mayGive_pure h').symm)
      exact absurd (hplain _ (objectClass?_eq_some_iff.2 htext)) (resolved_ne_empty hy)
  rcases isPlain_or_exists text with hx | ⟨x, hx, rfl⟩
  · exact absurd (hplain hx h h') hne
  rcases isPlain_or_exists text' with hy | ⟨y, hy, rfl⟩
  · exact absurd (hplain hy h' h).symm hne
  rw [resolveElement_of_class r hx] at h
  rw [resolveElement_of_class r hy] at h'
  obtain ⟨_, hclass, h⟩ := mayGive_bind h
  obtain ⟨_, hclass', h'⟩ := mayGive_bind h'
  obtain rfl := eq_of_mayGive_resolveClass hclass
  obtain rfl := eq_of_mayGive_resolveClass hclass'
  refine ⟨x, y, rfl, rfl, ?_, ?_⟩
  · rintro rfl
    exact hne rfl
  · rw [← String.toList_inj]
    simpa using String.ofList_injective ((mayGive_pure h).trans (mayGive_pure h').symm)

theorem fieldsMerge_of_resolveDescriptor (hseparate : r.settings.Separate) {descriptor descriptor' resolved : String}
    (hne : descriptor ≠ descriptor') (h : MayGive (r.resolveDescriptor descriptor) resolved)
    (h' : MayGive (r.resolveDescriptor descriptor') resolved) : r.FieldsMerge descriptor descriptor' := by
  obtain ⟨dimensions, element, htext, hstop⟩ := exists_eq_replicate_append '[' descriptor.toList
  obtain ⟨dimensions', element', htext', hstop'⟩ := exists_eq_replicate_append '[' descriptor'.toList
  obtain rfl : descriptor = String.ofList (List.replicate dimensions '[' ++ element) := by
    rw [← htext, String.ofList_toList]
  obtain rfl : descriptor' = String.ofList (List.replicate dimensions' '[' ++ element') := by
    rw [← htext', String.ofList_toList]
  rw [resolveDescriptor_eq r dimensions hstop] at h
  rw [resolveDescriptor_eq r dimensions' hstop'] at h'
  obtain ⟨new, hnew, h⟩ := mayGive_bind h
  obtain ⟨new', hnew', h'⟩ := mayGive_bind h'
  have hsame := String.ofList_injective ((mayGive_pure h).trans (mayGive_pure h').symm)
  -- The brackets are the same, since no element begins with one, and so are the elements.
  obtain ⟨htake, hdrop⟩ := scan_replicate_append dimensions (head?_resolveElement r hstop hnew)
  obtain ⟨htake', hdrop'⟩ := scan_replicate_append dimensions' (head?_resolveElement r hstop' hnew')
  rw [hsame] at htake hdrop
  obtain rfl : dimensions = dimensions' := by
    simpa using congrArg List.length (htake.symm.trans htake')
  obtain rfl : new = new' := String.toList_inj.1 (hdrop.symm.trans hdrop')
  obtain ⟨x, y, rfl, rfl, hxy, hresolved⟩ := exists_of_resolveElement_eq (fun h => hne (by rw [h])) hnew hnew'
  obtain ⟨extraDims, xClass, yClass, rfl, rfl, hmerges⟩ := exists_merges_of_resolved_eq hseparate hxy hresolved
  exact ⟨dimensions, extraDims, xClass, yClass, by simp [objectArray], by simp [objectArray], hmerges⟩

/-- A type without a class stays, and one with a class keeps its brackets around what the class turns into. -/
theorem eq_or_exists_of_mapClass {type resolved : FieldType BinaryName}
    (h : MayGive (type.mapClass r.resolveName) resolved) :
    type = resolved ∧ type.class? = none ∨
      ∃ x new, resolved.class? = some new ∧ MayGive (r.resolveName x) new ∧
        type = resolved.mapClass (m := Id) fun _ => x := by
  cases type with
  | base type => exact .inl ⟨mayGive_pure h, rfl⟩
  | ref type =>
    obtain ⟨new, hnew, h⟩ := mayGive_bind h
    obtain rfl := mayGive_pure h
    cases type with
    | object name =>
      obtain ⟨name', hname, h⟩ := mayGive_bind hnew
      obtain rfl := mayGive_pure h
      exact .inr ⟨name, name', rfl, hname, rfl⟩
    | objectArray extraDims element =>
      obtain ⟨name', hname, h⟩ := mayGive_bind hnew
      obtain rfl := mayGive_pure h
      exact .inr ⟨element, name', rfl, hname, rfl⟩
    | baseArray extraDims element =>
      obtain rfl := mayGive_pure hnew
      exact .inl ⟨rfl, rfl⟩

/-- The brackets of a type that mentions a class do not depend on the class. -/
theorem exists_render_mapClass {type : FieldType BinaryName} {name : BinaryName} (h : type.class? = some name) :
    ∃ dimensions, ∀ x : BinaryName,
      String.ofList (type.mapClass (m := Id) fun _ => x).render = objectArray dimensions x.text := by
  rcases type with type | (name | ⟨extraDims, element⟩ | ⟨extraDims, element⟩)
  · cases h
  · exact ⟨0, fun x => rfl⟩
  · exact ⟨extraDims + 1, fun x => congrArg String.ofList (List.append_assoc _ _ _).symm⟩
  · cases h

/-- Two types that turn into the same one agree. -/
theorem typesAgree_of_mapClass (hseparate : r.settings.Separate) {type type' resolved : FieldType BinaryName}
    (h : MayGive (type.mapClass r.resolveName) resolved) (h' : MayGive (type'.mapClass r.resolveName) resolved) :
    r.TypesAgree type type' := by
  rcases eq_or_exists_of_mapClass h with ⟨htype, hplain⟩ | ⟨x, new, hnew, hresolved, htype⟩ <;>
    rcases eq_or_exists_of_mapClass h' with ⟨htype', hplain'⟩ | ⟨y, new', hnew', hresolved', htype'⟩
  · exact .inl (htype.trans htype'.symm)
  · rw [htype, hnew'] at hplain
    cases hplain
  · rw [htype', hnew] at hplain'
    cases hplain'
  · obtain rfl : new = new' := Option.some.inj (hnew.symm.trans hnew')
    by_cases hsame : x = y
    · exact .inl (by rw [htype, htype', hsame])
    · have hverdicts : (r.verdict x.text).resolved = (r.verdict y.text).resolved := by
        rw [← eq_of_mayGive_resolveClass (mayGive_resolveName r hresolved),
          ← eq_of_mayGive_resolveClass (mayGive_resolveName r hresolved')]
      obtain ⟨dimensions, hrender⟩ := exists_render_mapClass hnew
      refine .inr ⟨dimensions, [], x, y, ?_, ?_, merges_of_resolved_eq hseparate hsame hverdicts⟩
      · rw [htype, hrender]
        rfl
      · rw [htype', hrender]
        rfl

section Common

variable {α β : Type} {R : α → β → Prop} {S : α → α → Prop}

theorem forall₂_of_common {items items' : List α} {results : List β} (h : List.Forall₂ R items results)
    (h' : List.Forall₂ R items' results) (hstep : ∀ {a a' b}, R a b → R a' b → S a a') :
    List.Forall₂ S items items' := by
  induction h generalizing items' with
  | nil =>
    cases h'
    exact .nil
  | cons hfirst _ ih =>
    cases h' with
    | cons hfirst' hrest' => exact .cons (hstep hfirst hfirst') (ih hrest')

theorem optionRel_of_common {item item' : Option α} {result : Option β} (h : Option.Rel R item result)
    (h' : Option.Rel R item' result) (hstep : ∀ {a a' b}, R a b → R a' b → S a a') : Option.Rel S item item' := by
  cases h with
  | none =>
    cases h'
    exact .none
  | some hitem =>
    cases h' with
    | some hitem' => exact .some (hstep hitem hitem')

end Common

/-- The types of a method descriptor turn into those of the resolved one, place by place. -/
theorem forall₂_of_mapClass {parsed resolved : MethodDescriptor BinaryName}
    (h : MayGive (parsed.mapClass r.resolveName) resolved) :
    List.Forall₂ (fun type new => MayGive (type.mapClass r.resolveName) new) parsed.parameters resolved.parameters ∧
      Option.Rel (fun type new => MayGive (type.mapClass r.resolveName) new) parsed.result resolved.result := by
  obtain ⟨parameters, hparameters, h⟩ := mayGive_bind h
  obtain ⟨result, hresult, h⟩ := mayGive_bind h
  obtain rfl := mayGive_pure h
  refine ⟨forall₂_of_mayGive_mapM hparameters, ?_⟩
  cases hold : parsed.result with
  | none =>
    rw [hold] at hresult
    obtain rfl := mayGive_pure hresult
    exact .none
  | some type =>
    rw [hold, Option.mapM_some, ← bind_pure_comp] at hresult
    obtain ⟨new, hnew, hresult⟩ := mayGive_bind hresult
    obtain rfl := mayGive_pure hresult
    exact .some hnew

/-- A descriptor that cannot be read stays as it is, and no other one turns into it. -/
theorem eq_of_resolveMethodDescriptor_of_error {descriptor descriptor' resolved : String} {fault : SyntaxFault}
    (hparse : parseAll MethodDescriptor.read descriptor = .error fault)
    (h : MayGive (r.resolveMethodDescriptor descriptor) resolved)
    (h' : MayGive (r.resolveMethodDescriptor descriptor') resolved) : descriptor = descriptor' := by
  rw [resolveMethodDescriptor_of_error r hparse] at h
  obtain ⟨_, -, h⟩ := mayGive_bind h
  obtain rfl := mayGive_pure h
  cases hparse' : parseAll MethodDescriptor.read descriptor' with
  | error fault' =>
    rw [resolveMethodDescriptor_of_error r hparse'] at h'
    obtain ⟨_, -, h'⟩ := mayGive_bind h'
    exact (mayGive_pure h').symm
  | ok parsed =>
    obtain rfl := MethodDescriptor.parseAll_read_iff.1 hparse'
    rw [resolveMethodDescriptor_eq] at h'
    obtain ⟨new, -, h'⟩ := mayGive_bind h'
    rw [MethodDescriptor.parseAll_read_iff.2 (mayGive_pure h').symm] at hparse
    cases hparse

theorem methodsMerge_of_resolveMethodDescriptor (hseparate : r.settings.Separate)
    {descriptor descriptor' resolved : String} (hne : descriptor ≠ descriptor')
    (h : MayGive (r.resolveMethodDescriptor descriptor) resolved)
    (h' : MayGive (r.resolveMethodDescriptor descriptor') resolved) :
    r.MethodsMerge descriptor descriptor' := by
  cases hparse : parseAll MethodDescriptor.read descriptor with
  | error fault => exact absurd (eq_of_resolveMethodDescriptor_of_error hparse h h') hne
  | ok parsed =>
    cases hparse' : parseAll MethodDescriptor.read descriptor' with
    | error fault => exact absurd (eq_of_resolveMethodDescriptor_of_error hparse' h' h).symm hne
    | ok parsed' =>
      obtain rfl := MethodDescriptor.parseAll_read_iff.1 hparse
      obtain rfl := MethodDescriptor.parseAll_read_iff.1 hparse'
      rw [resolveMethodDescriptor_eq] at h h'
      obtain ⟨new, hnew, h⟩ := mayGive_bind h
      obtain ⟨new', hnew', h'⟩ := mayGive_bind h'
      obtain rfl : new = new' := by
        have hread := MethodDescriptor.parseAll_read_iff.2 (mayGive_pure h).symm
        rw [MethodDescriptor.parseAll_read_iff.2 (mayGive_pure h').symm] at hread
        exact (Except.ok.inj hread).symm
      obtain ⟨hparameters, hresult⟩ := forall₂_of_mapClass hnew
      obtain ⟨hparameters', hresult'⟩ := forall₂_of_mapClass hnew'
      exact ⟨parsed, parsed', fun hsame => hne (by rw [hsame]), rfl, rfl,
        forall₂_of_common hparameters hparameters' (typesAgree_of_mapClass hseparate),
        optionRel_of_common hresult hresult' (typesAgree_of_mapClass hseparate)⟩

end Resolver

end ClassSandbox
