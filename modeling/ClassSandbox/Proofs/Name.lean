import ClassSandbox.Name

/-!
# Names and namespaces

The segments of a name in a namespace are those of the namespace and then its own (`segments_wrap`), so it
is valid exactly when both are (`isValid_wrap_iff`). A valid name holds none of the marks of descriptors
(`isNameMark_of_mem`), and so it never starts like an array class.

Namespaces that are `Apart` have no name in common (`Apart.wrap_ne_wrap`).
-/

namespace ClassSandbox.BinaryName

theorem segments_wrap (space : BinaryName) (name : String) :
    segments (space.wrap name) = segments space.text ++ segments name := by
  simp [segments, wrap, List.append_assoc, List.splitOn_append_cons_self]

theorem isValid_wrap_iff {space : BinaryName} {name : String} :
    IsValid (space.wrap name) ↔ IsValid name := by
  have hspace := isValid_iff.1 space.valid
  rw [isValid_iff, isValid_iff, segments_wrap]
  simp only [List.mem_append]
  exact ⟨fun h segment hmem => h segment (.inr hmem),
    fun h segment hmem => hmem.elim (hspace segment) (h segment)⟩

theorem exists_mem_splitOn {text : List Char} {separator c : Char} (hmem : c ∈ text) (hne : c ≠ separator) :
    ∃ segment ∈ text.splitOn separator, c ∈ segment := by
  induction text with
  | nil => simp at hmem
  | cons d text ih =>
    rw [List.splitOn_cons_eq_if_modifyHead]
    rcases List.mem_cons.1 hmem with rfl | hrest
    · obtain ⟨segment, others, hsplit⟩ := List.exists_cons_of_ne_nil (List.splitOn_ne_nil separator text)
      simp [hne, hsplit]
    · obtain ⟨segment, hsegment, hc⟩ := ih hrest
      split
      · exact ⟨segment, List.mem_cons_of_mem _ hsegment, hc⟩
      · obtain ⟨first, others, hsplit⟩ := List.exists_cons_of_ne_nil (List.splitOn_ne_nil separator text)
        rw [hsplit] at hsegment ⊢
        rcases List.mem_cons.1 hsegment with rfl | hother
        · exact ⟨d :: segment, by simp, List.mem_cons_of_mem _ hc⟩
        · exact ⟨segment, by simp [hother], hc⟩

theorem mem_of_mem_splitOn {text segment : List Char} {separator c : Char} (hsegment : segment ∈ text.splitOn separator)
    (hc : c ∈ segment) : c ∈ text ∧ c ≠ separator := by
  induction text generalizing segment with
  | nil =>
    rw [List.splitOn_nil, List.mem_singleton] at hsegment
    subst hsegment
    cases hc
  | cons d text ih =>
    rw [List.splitOn_cons_eq_if_modifyHead] at hsegment
    split at hsegment
    · rcases List.mem_cons.1 hsegment with rfl | hsegment
      · cases hc
      · exact (ih hsegment hc).imp_left (List.mem_cons_of_mem d)
    · rename_i hne
      obtain ⟨first, others, hsplit⟩ := List.exists_cons_of_ne_nil (List.splitOn_ne_nil separator text)
      rw [hsplit, List.modifyHead_cons] at hsegment
      rw [hsplit] at ih
      rcases List.mem_cons.1 hsegment with rfl | hsegment
      · rcases List.mem_cons.1 hc with rfl | hc
        · exact ⟨List.mem_cons_self, by simpa using hne⟩
        · exact (ih List.mem_cons_self hc).imp_left (List.mem_cons_of_mem d)
      · exact (ih (List.mem_cons_of_mem _ hsegment) hc).imp_left (List.mem_cons_of_mem d)

/-- A valid name holds no mark but the slashes between its segments. -/
theorem isNameMark_of_mem {name : String} (hvalid : IsValid name) {c : Char} (hmem : c ∈ name.toList)
    (hne : c ≠ '/') : isNameMark c = false := by
  obtain ⟨segment, hsegment, hc⟩ := exists_mem_splitOn hmem hne
  exact (isValid_iff.1 hvalid segment hsegment).2 c hc

theorem head?_ne_bracket {name : String} (hvalid : IsValid name) : name.toList.head? ≠ some '[' := by
  intro h
  have := isNameMark_of_mem hvalid (List.mem_of_head? h) (by decide)
  simp [isNameMark] at this

theorem text_ne_nil (name : BinaryName) : name.text.toList ≠ [] := by
  intro h
  have := isValid_iff.1 name.valid
  simp [segments, h, List.splitOn_nil] at this

theorem head?_wrap_ne_bracket (space : BinaryName) (name : String) :
    (space.wrap name).toList.head? ≠ some '[' := by
  obtain ⟨c, rest, hcons⟩ := List.exists_cons_of_ne_nil space.text_ne_nil
  have hspace := head?_ne_bracket space.valid
  rw [hcons] at hspace
  simpa [wrap, hcons] using hspace

theorem ne_empty {name : String} (hvalid : IsValid name) : name ≠ "" := by
  rintro rfl
  exact absurd hvalid (by decide)

theorem strip?_wrap (space : BinaryName) {name : String} (hvalid : IsValid name) :
    space.strip? (space.wrap name) = some name :=
  strip?_eq_some_iff.2 ⟨ne_empty hvalid, rfl⟩

theorem wrap_injective (space : BinaryName) {name name' : String} (h : space.wrap name = space.wrap name') :
    name = name' := by
  rw [← String.toList_inj] at h ⊢
  simpa [wrap] using h

/-! ## Namespaces -/

/-- Neither namespace is the other one or lies inside it. -/
def Apart (space other : BinaryName) : Prop :=
  space.text ≠ other.text ∧ space.contains other.text = false ∧ other.contains space.text = false

instance (space other : BinaryName) : Decidable (Apart space other) :=
  inferInstanceAs (Decidable (_ ∧ _ ∧ _))

variable {space other : BinaryName}

theorem Apart.symm (h : Apart space other) : Apart other space := ⟨h.1.symm, h.2.2, h.2.1⟩

/-- A namespace does not go on in another one behind a slash. -/
theorem Apart.ne_wrap (h : Apart space other) (name : String) : space.text ≠ other.wrap name := by
  intro hwrap
  have hvalid : IsValid name := isValid_wrap_iff.1 (hwrap ▸ space.valid)
  have hinside : other.contains space.text = true := by
    rw [contains, hwrap, strip?_wrap other hvalid, Option.isSome_some]
  rw [h.2.2] at hinside
  cases hinside

theorem Apart.wrap_ne_wrap (h : Apart space other) (name name' : String) :
    space.wrap name ≠ other.wrap name' := by
  have hlonger : ∀ {space other : BinaryName} {more front back : List Char}, Apart space other →
      space.text.toList = other.text.toList ++ more → '/' :: back ≠ more ++ '/' :: front := by
    intro space other more front back h htext hback
    cases more with
    | nil => exact h.1 (String.toList_inj.1 (htext.trans (List.append_nil _)))
    | cons c more =>
      obtain ⟨rfl, -⟩ := List.cons.inj hback
      refine h.ne_wrap (String.ofList more) ?_
      rw [← String.toList_inj, htext, wrap]
      simp
  intro hwrap
  have htexts : space.text.toList ++ '/' :: name.toList = other.text.toList ++ '/' :: name'.toList := by
    simpa [wrap] using congrArg String.toList hwrap
  rcases List.append_eq_append_iff.1 htexts with ⟨more, htext, hback⟩ | ⟨more, htext, hback⟩
  · exact hlonger h.symm htext hback
  · exact hlonger h htext hback

theorem Apart.strip?_wrap (h : Apart space other) (name : String) : space.strip? (other.wrap name) = none := by
  rw [Option.eq_none_iff_forall_ne_some]
  intro inner hstrip
  exact h.wrap_ne_wrap inner name (strip?_eq_some_iff.1 hstrip).2.symm

end ClassSandbox.BinaryName
