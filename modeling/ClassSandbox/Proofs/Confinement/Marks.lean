import ClassSandbox.Confinement
import ClassSandbox.Proofs.Outcome
import ClassSandbox.Proofs.Resolution.Refusal
import ClassSandbox.Proofs.Resolution.Verdict

/-!
# Marks of names and types

What resolution puts in the place of another text is `Marked`: it has a character that names of attributes do not
have, such as the slash after a namespace. So a new text is never taken for the name of an attribute.
-/

namespace ClassSandbox

/-- The text has a character that only stands in names of classes in packages, in types and in signatures. -/
def Marked (text : String) : Prop := ∃ c ∈ ['/', '[', ';', '('], c ∈ text.toList

theorem marked_of_mem {text : String} {c : Char} (hmem : c ∈ text.toList)
    (hmark : c ∈ ['/', '[', ';', '('] := by decide) : Marked text := ⟨c, hmark, hmem⟩

/-- The name of signatures has no mark. -/
theorem not_marked_signature : ¬ Marked signatureKind.name := by
  rintro ⟨c, hmark, hmem⟩
  simp only [List.mem_cons, List.not_mem_nil, or_false] at hmark
  rcases hmark with rfl | rfl | rfl | rfl <;> simp [signatureKind] at hmem

theorem slash_mem_wrap (space : BinaryName) (name : String) : '/' ∈ (space.wrap name).toList := by
  simp [BinaryName.wrap]

theorem BinaryName.slash_mem_of_contains {space : BinaryName} {name : String} (h : space.contains name = true) :
    '/' ∈ name.toList := by
  obtain ⟨inner, hstrip⟩ := Option.isSome_iff_exists.1 h
  rw [(BinaryName.strip?_eq_some_iff.1 hstrip).2]
  exact slash_mem_wrap space inner

namespace Resolver

variable {r : Resolver} {name : String}

/-! ## Classes -/

theorem slash_mem_of_isSubstitute (h : r.isSubstitute name = true) : '/' ∈ name.toList := by
  unfold isSubstitute at h
  rcases Bool.or_eq_true_iff.1 h with hchannel | hrandom
  · split at hchannel
    · rename_i hstrip
      exact BinaryName.slash_mem_of_contains (Option.isSome_of_eq_some hstrip)
    · cases hchannel
  · exact BinaryName.slash_mem_of_contains (Option.isSome_of_eq_some (eq_of_beq hrandom))

/-- Only names in packages are not copied. -/
theorem slash_mem_of_not_isCopied (h : r.isCopied name = false) : '/' ∈ name.toList := by
  have hcontains : ∀ {space other : BinaryName}, (space.contains name || other.contains name) = true →
      '/' ∈ name.toList := fun h =>
    (Bool.or_eq_true_iff.1 h).elim BinaryName.slash_mem_of_contains BinaryName.slash_mem_of_contains
  unfold isCopied at h
  split at h
  · cases h
  split at h
  · exact hcontains ‹_›
  split at h
  · exact hcontains ‹_›
  split at h
  · rename_i hshared
    rcases Bool.or_eq_true_iff.1 hshared with heq | heq <;> rw [eq_of_beq heq] <;> decide
  split at h
  · cases h
  · rw [Bool.not_eq_false'] at h
    rcases Bool.or_eq_true_iff.1 h with h | hjava
    · exact hcontains h
    · exact BinaryName.slash_mem_of_contains hjava

theorem slash_mem_freshVerdict (name : String) : '/' ∈ (r.freshVerdict name).resolved.toList := by
  unfold freshVerdict
  split
  · exact slash_mem_wrap _ _
  · split
    · exact slash_mem_wrap _ _
    · split
      · exact slash_mem_wrap _ _
      · split
        · exact slash_mem_wrap _ _
        · rename_i hcopied
          exact slash_mem_of_not_isCopied (Bool.eq_false_iff.2 hcopied)

theorem slash_mem_verdict (hvalid : BinaryName.IsValid name) : '/' ∈ (r.verdict name).resolved.toList := by
  fun_induction r.verdict name with
  | case1 name hbracket => exact absurd hbracket (BinaryName.head?_ne_bracket hvalid)
  | case2 name hbracket => exact absurd hbracket (BinaryName.head?_ne_bracket hvalid)
  | case3 name _ hinvalid => exact absurd hvalid hinvalid
  | case4 name _ _ hkept =>
    rcases Bool.or_eq_true_iff.1 hkept with hown | hsubstitute
    · exact BinaryName.slash_mem_of_contains hown
    · exact slash_mem_of_isSubstitute hsubstitute
  | case5 name _ _ _ inner hstrip => exact BinaryName.slash_mem_of_contains (Option.isSome_of_eq_some hstrip)
  | case6 name _ _ _ _ inner hstrip _ ih =>
    -- The slash of the namespace is gone, and the verdict on the rest brings one.
    rw [(BinaryName.strip?_eq_some_iff.1 hstrip).2, BinaryName.isValid_wrap_iff] at hvalid
    exact ih hvalid
  | case7 name => exact slash_mem_freshVerdict name

theorem semicolon_mem_objectArray (dimensions : Nat) (inner : String) :
    ';' ∈ (objectArray dimensions inner).toList := by
  simp [objectArray]

theorem verdict_resolved_eq_or_marked (name : String) :
    (r.verdict name).resolved = name ∨ Marked (r.verdict name).resolved := by
  by_cases hvalid : BinaryName.IsValid name
  · exact .inr (marked_of_mem (slash_mem_verdict hvalid))
  · rw [verdict_eq, if_pos hvalid]
    split
    · split
      · exact .inr (marked_of_mem (semicolon_mem_objectArray _ _))
      · exact .inl rfl
    · exact .inl rfl

theorem eq_or_marked_of_resolveClass {new : String} (h : MayGive (r.resolveClass name) new) :
    new = name ∨ Marked new := by
  obtain ⟨before, after, h⟩ := h
  rw [(outcome_resolveClass_ok h).1]
  exact verdict_resolved_eq_or_marked name

/-! ## Descriptors -/

variable {descriptor new : String}

theorem eq_or_mem_of_resolveElement {text : List Char} (h : MayGive (r.resolveElement text) new) :
    new = String.ofList text ∨ ';' ∈ new.toList := by
  unfold resolveElement at h
  split at h
  case h_1 | h_2 =>
    left
    split at h
    · obtain ⟨_, -, h⟩ := mayGive_bind h
      exact (mayGive_pure h).symm
    · exact (mayGive_pure h).symm
  case h_3 =>
    obtain ⟨resolved, -, h⟩ := mayGive_bind h
    rw [← mayGive_pure h]
    exact .inr (by simp)

theorem eq_or_marked_of_resolveDescriptor (h : MayGive (r.resolveDescriptor descriptor) new) :
    new = descriptor ∨ Marked new := by
  obtain ⟨element, helement, h⟩ := mayGive_bind h
  rw [← mayGive_pure h]
  rcases eq_or_mem_of_resolveElement helement with rfl | hmem
  · exact .inl (by simp [List.takeWhile_append_dropWhile])
  · refine .inr (marked_of_mem (c := ';') ?_)
    rw [String.toList_ofList]
    exact List.mem_append_right _ hmem

theorem eq_or_marked_of_resolveMethodDescriptor (h : MayGive (r.resolveMethodDescriptor descriptor) new) :
    new = descriptor ∨ Marked new := by
  unfold resolveMethodDescriptor at h
  split at h
  · obtain ⟨_, -, h⟩ := mayGive_bind h
    exact .inl (mayGive_pure h).symm
  · obtain ⟨resolved, -, h⟩ := mayGive_bind h
    rw [← mayGive_pure h]
    exact .inr (marked_of_mem (c := '(') (by simp [MethodDescriptor.render]))

theorem eq_or_marked_of_resolveAnyDescriptor (h : MayGive (r.resolveAnyDescriptor descriptor) new) :
    new = descriptor ∨ Marked new := by
  unfold resolveAnyDescriptor at h
  split at h
  · exact eq_or_marked_of_resolveMethodDescriptor h
  · exact eq_or_marked_of_resolveDescriptor h

/-! ## Signatures -/

theorem semicolon_mem_classSignature (type : ClassTypeSignature) : ';' ∈ type.render := by
  cases type with
  | mk outer projections => simp [ClassTypeSignature.render]

theorem marked_referenceSignature (type : ReferenceSignature) : Marked (String.ofList type.render) := by
  cases type with
  | object type =>
    refine marked_of_mem (c := ';') ?_
    rw [String.toList_ofList, ReferenceSignature.render]
    exact semicolon_mem_classSignature type
  | «variable» name => exact marked_of_mem (c := ';') (by simp [ReferenceSignature.render])
  | array element => exact marked_of_mem (c := '[') (by simp [ReferenceSignature.render])

theorem marked_genericSignature (signature : GenericSignature) : Marked (String.ofList signature.render) := by
  cases signature with
  | ofClass signature =>
    refine marked_of_mem (c := ';') ?_
    rw [String.toList_ofList, GenericSignature.render, ClassSignature.render]
    exact List.mem_append_left _ (List.mem_append_right _ (semicolon_mem_classSignature signature.superclass))
  | ofMethod signature =>
    exact marked_of_mem (c := '(') (by simp [GenericSignature.render, MethodSignature.render])

theorem marked_of_resolveWith {α : Type} {parser : Parser α} {render : α → List Char}
    {mapNames : (String → Resolution String) → α → Resolution α} {old : Option String} {new : String}
    (hrender : ∀ value, Marked (String.ofList (render value)))
    (h : MayGive (r.resolveWith parser render mapNames old) (some new)) : Marked new := by
  unfold resolveWith at h
  split at h
  · cases mayGive_pure h
  · split at h
    · obtain ⟨_, -, h⟩ := mayGive_bind h
      cases mayGive_pure h
    · obtain ⟨resolved, -, h⟩ := mayGive_bind h
      cases mayGive_pure h
      exact hrender resolved

theorem marked_of_resolveSignature {old : Option String} {new : String}
    (h : MayGive (r.resolveSignature old) (some new)) : Marked new :=
  marked_of_resolveWith marked_genericSignature h

theorem marked_of_resolveFieldSignature {old : Option String} {new : String}
    (h : MayGive (r.resolveFieldSignature old) (some new)) : Marked new :=
  marked_of_resolveWith marked_referenceSignature h

end Resolver

end ClassSandbox
