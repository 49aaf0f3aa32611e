import ClassSandbox.Proofs.Descriptor
import ClassSandbox.Proofs.Grammar
import ClassSandbox.Proofs.Name

/-!
# Descriptors are read as they are written

A parser of descriptors takes a value off the front of a text exactly when the text begins with that value
written out (`FieldType.takes_read_iff`, `MethodDescriptor.takes_read_iff`). The value is then the only one, and
the rest of the text does not matter. Behind a bracket it is the type of the elements of an array
(`FieldType.takes_read_bracket_iff`).
-/

namespace ClassSandbox

variable {text rest : List Char}

theorem BaseType.takes_read_iff {type : BaseType} :
    Takes (BaseType.read text) type rest ↔ text = type.letter :: rest := by
  unfold BaseType.read
  constructor
  · intro h
    split at h
    · exact absurd h not_takes_error
    · split at h
      · rename_i hletter
        obtain ⟨rfl, rfl⟩ := takes_ok_iff.1 h
        rw [letter_of_ofLetter? hletter]
      · exact absurd h not_takes_error
  · rintro rfl
    simp [takes_ok_iff]

/-! ## Classes -/

namespace BinaryName

theorem ne_semicolon_of_mem (name : BinaryName) : ∀ c ∈ name.text.toList, (c != ';') = true := by
  intro c hmem
  rw [bne_iff_ne]
  rintro rfl
  have := isNameMark_of_mem name.valid hmem (by decide)
  simp [isNameMark] at this

theorem takes_read_iff {name : BinaryName} :
    Takes (BinaryName.read text) name rest ↔ text = renderClass name ++ rest := by
  constructor
  · intro h
    unfold BinaryName.read at h
    split at h
    · split at h
      · exact absurd h not_takes_error
      · rename_i hscan
        split at h
        · exact absurd h not_takes_error
        · rename_i hparsed
          obtain ⟨rfl, rfl⟩ := takes_ok_iff.1 h
          obtain ⟨hmark, hinside⟩ := eq_append_of_dropWhile hscan
          rw [bne_eq_false_iff_eq] at hmark
          rw [hmark] at hinside
          simpa [renderClass, ClassText.text, text_of_ofString hparsed] using hinside
    · exact absurd h not_takes_error
  · rintro rfl
    have hstop : ∀ c ∈ (';' :: rest).head?, (c != ';') = false := by simp
    have htake := takeWhile_append_of_stop name.ne_semicolon_of_mem hstop
    have hdrop := dropWhile_append_of_stop name.ne_semicolon_of_mem hstop
    have htext : renderClass name ++ rest = 'L' :: (name.text.toList ++ ';' :: rest) := by
      simp [renderClass, ClassText.text]
    rw [htext, BinaryName.read]
    split
    · rename_i hscan
      rw [hdrop] at hscan
      cases hscan
    · rename_i hscan
      rw [hdrop] at hscan
      cases hscan
      simp [htake, ofString_text, takes_ok_iff]

end BinaryName

/-! ## Types -/

namespace RefType

/-- What is read after the brackets of an array. -/
theorem takes_read_array_iff {extraDims : Nat} {element : List Char} (hstop : element.head? ≠ some '[')
    {type : RefType BinaryName} :
    Takes (RefType.read (List.replicate (extraDims + 1) '[' ++ element)) type rest ↔
      if element.head? = some 'L' then
        ∃ name, Takes (BinaryName.read element) name rest ∧ objectArray extraDims name = type
      else ∃ base, Takes (BaseType.read element) base rest ∧ baseArray extraDims base = type := by
  obtain ⟨htake, hdrop⟩ := scan_replicate_append extraDims hstop
  rw [List.replicate_succ, List.cons_append, RefType.read, if_neg (by decide), if_pos rfl]
  simp only [htake, hdrop, List.length_replicate]
  split
  · rw [takes_within_iff, hdrop]
  · rw [takes_within_iff, hdrop]

theorem takes_read_iff {type : RefType BinaryName} :
    Takes (RefType.read text) type rest ↔ text = type.render ++ rest := by
  constructor
  · intro h
    obtain ⟨dimensions, element, rfl, hstop⟩ := exists_eq_replicate_append '[' text
    cases dimensions with
    | succ extraDims =>
      rw [takes_read_array_iff hstop] at h
      split at h
      · obtain ⟨name, hname, rfl⟩ := h
        rw [BinaryName.takes_read_iff.1 hname]
        exact (List.append_assoc ..).symm
      · obtain ⟨base, hbase, rfl⟩ := h
        rw [BaseType.takes_read_iff.1 hbase]
        exact (List.append_assoc (List.replicate (extraDims + 1) '[') [base.letter] rest).symm
    | zero =>
      rw [List.replicate_zero, List.nil_append] at h ⊢
      unfold RefType.read at h
      split at h
      · exact absurd h not_takes_error
      · split at h
        · obtain ⟨name, hname, rfl⟩ := takes_map_iff.1 h
          exact BinaryName.takes_read_iff.1 hname
        · rw [if_neg fun hbracket => hstop (congrArg some hbracket)] at h
          exact absurd h not_takes_error
  · rintro rfl
    cases type with
    | object name =>
      exact takes_map_iff.2 ⟨name, BinaryName.takes_read_iff.2 rfl, rfl⟩
    | objectArray extraDims element =>
      rw [render, List.append_assoc]
      have hhead : (renderClass element ++ rest).head? = some 'L' := rfl
      rw [takes_read_array_iff (by simp [hhead]), if_pos hhead]
      exact ⟨element, BinaryName.takes_read_iff.2 rfl, rfl⟩
    | baseArray extraDims element =>
      rw [render, List.append_assoc]
      have hletter : element.letter ≠ '[' ∧ element.letter ≠ 'L' := by cases element <;> decide
      rw [takes_read_array_iff (by simpa using hletter.1), if_neg (by simpa using hletter.2)]
      exact ⟨element, BaseType.takes_read_iff.2 rfl, rfl⟩

theorem exists_render_eq_cons (type : RefType BinaryName) (rest : List Char) :
    ∃ c after, type.render ++ rest = c :: after ∧ (c = 'L' ∨ c = '[') := by
  cases type with
  | object name => exact ⟨_, _, rfl, .inl rfl⟩
  | objectArray extraDims element => exact ⟨_, _, rfl, .inr rfl⟩
  | baseArray extraDims element => exact ⟨_, _, rfl, .inr rfl⟩

end RefType

namespace FieldType

theorem takes_read_iff {type : FieldType BinaryName} :
    Takes (FieldType.read text) type rest ↔ text = type.render ++ rest := by
  constructor
  · intro h
    unfold FieldType.read at h
    split at h
    · exact absurd h not_takes_error
    · split at h
      · obtain ⟨ref, href, rfl⟩ := takes_map_iff.1 h
        exact RefType.takes_read_iff.1 href
      · obtain ⟨base, hbase, rfl⟩ := takes_map_iff.1 h
        exact BaseType.takes_read_iff.1 hbase
  · rintro rfl
    cases type with
    | base type =>
      have hletter : ¬(type.letter = 'L' ∨ type.letter = '[') := by cases type <;> decide
      rw [render, List.singleton_append, FieldType.read, if_neg hletter]
      exact takes_map_iff.2 ⟨type, BaseType.takes_read_iff.2 rfl, rfl⟩
    | ref type =>
      obtain ⟨c, after, htext, hstart⟩ := type.exists_render_eq_cons rest
      rw [render, htext, FieldType.read, if_pos hstart]
      exact takes_map_iff.2 ⟨type, RefType.takes_read_iff.2 htext.symm, rfl⟩

/-- Behind a bracket stands the type of the elements. -/
theorem takes_read_bracket_iff {type : FieldType BinaryName} :
    Takes (FieldType.read ('[' :: text)) type rest ↔
      ∃ element, Takes (FieldType.read text) element rest ∧ type = element.array := by
  simp only [takes_read_iff]
  constructor
  · intro h
    cases type with
    | base type =>
      have hletter : '[' ≠ type.letter := by cases type <;> decide
      exact absurd (List.cons.inj h).1 hletter
    | ref type =>
      cases type with
      | object name => exact absurd (List.cons.inj h).1 (by decide)
      | objectArray extraDims name =>
        cases extraDims with
        | zero => exact ⟨ref (.object name), (List.cons.inj h).2, rfl⟩
        | succ extraDims => exact ⟨ref (.objectArray extraDims name), (List.cons.inj h).2, rfl⟩
      | baseArray extraDims base =>
        cases extraDims with
        | zero => exact ⟨.base base, (List.cons.inj h).2, rfl⟩
        | succ extraDims => exact ⟨ref (.baseArray extraDims base), (List.cons.inj h).2, rfl⟩
  · rintro ⟨element, rfl, rfl⟩
    rw [render_array, List.cons_append]

/-- No field type starts like the end of the parameters or like the result of a `void` method. -/
theorem exists_render_eq_cons (type : FieldType BinaryName) (rest : List Char) :
    ∃ c after, type.render ++ rest = c :: after ∧ c ≠ ')' ∧ c ≠ 'V' := by
  cases type with
  | base type => exact ⟨type.letter, rest, rfl, by cases type <;> decide, by cases type <;> decide⟩
  | ref type =>
    obtain ⟨c, after, htext, rfl | rfl⟩ := type.exists_render_eq_cons rest
    · exact ⟨_, after, htext, by decide, by decide⟩
    · exact ⟨_, after, htext, by decide, by decide⟩

end FieldType

namespace MethodDescriptor

theorem takes_readParameters_iff {whole : List Char} {part : text.length ≤ whole.length}
    {seen types : List (FieldType BinaryName)} :
    Takes (readParameters text part seen) types rest ↔
      ∃ more, types = seen.reverse ++ more ∧ text = more.flatMap FieldType.render ++ ')' :: rest := by
  constructor
  · intro h
    fun_induction readParameters text part seen with
    | case1 => exact absurd h not_takes_error
    | case2 =>
      obtain ⟨rfl, rfl⟩ := takes_ok_iff.1 h
      exact ⟨[], (List.append_nil _).symm, rfl⟩
    | case3 => exact absurd h not_takes_error
    | case4 seen c inside part hmark type after shorter hread _ ih =>
      obtain ⟨more, rfl, rfl⟩ := ih h
      have htext := FieldType.takes_read_iff.1 ⟨shorter, hread⟩
      exact ⟨type :: more, by simp, by simpa using htext⟩
  · rintro ⟨more, rfl, rfl⟩
    induction more generalizing seen with
    | nil =>
      rw [readParameters.eq_def]
      exact takes_ok_iff.2 ⟨(List.append_nil _).symm, rfl⟩
    | cons type more ih =>
      obtain ⟨c, inside, htext, hclose, -⟩ :=
        type.exists_render_eq_cons (more.flatMap FieldType.render ++ ')' :: rest)
      obtain ⟨shorter, hread⟩ := FieldType.takes_read_iff.2 htext.symm
      have htypes : (type :: more).flatMap FieldType.render ++ ')' :: rest = c :: inside := by
        simpa using htext
      have hreverse : seen.reverse ++ type :: more = (type :: seen).reverse ++ more := by simp
      simp only [htypes, hreverse]
      rw [readParameters, hread]
      · exact ih
      · exact hclose

theorem takes_readResult_iff {result : Option (FieldType BinaryName)} :
    Takes (readResult text) result rest ↔ text = result.elim ['V'] FieldType.render ++ rest := by
  constructor
  · intro h
    unfold readResult at h
    split at h
    · obtain ⟨rfl, rfl⟩ := takes_ok_iff.1 h
      rfl
    · obtain ⟨type, htype, rfl⟩ := takes_map_iff.1 h
      exact FieldType.takes_read_iff.1 htype
  · rintro rfl
    cases result with
    | none => exact ⟨length_lt_cons 'V' rest, rfl⟩
    | some type =>
      obtain ⟨c, after, htext, -, hvoid⟩ := type.exists_render_eq_cons rest
      rw [Option.elim_some, htext, readResult]
      · exact takes_map_iff.2 ⟨type, FieldType.takes_read_iff.2 htext.symm, rfl⟩
      · rintro _ ⟨⟩
        exact hvoid rfl

theorem takes_read_iff {descriptor : MethodDescriptor BinaryName} :
    Takes (MethodDescriptor.read text) descriptor rest ↔ text = descriptor.render ++ rest := by
  have hrender : descriptor.render ++ rest = '(' :: (descriptor.parameters.flatMap FieldType.render ++
      ')' :: (descriptor.result.elim ['V'] FieldType.render ++ rest)) := by
    rw [render]
    cases descriptor.result <;> simp
  constructor
  · intro h
    unfold MethodDescriptor.read at h
    split at h
    · split at h
      · exact absurd h not_takes_error
      · rename_i hparameters
        obtain ⟨result, hresult, rfl⟩ := (takes_within_iff _).1 h
        obtain ⟨_, rfl, rfl⟩ := takes_readParameters_iff.1 ⟨_, hparameters⟩
        rw [hrender, takes_readResult_iff.1 hresult]
    · exact absurd h not_takes_error
  · rintro rfl
    rw [hrender, MethodDescriptor.read]
    generalize hafter : descriptor.result.elim ['V'] FieldType.render ++ rest = after
    have hparameters : Takes (readParameters (descriptor.parameters.flatMap FieldType.render ++ ')' :: after)
        (Nat.le_refl _) []) descriptor.parameters after :=
      takes_readParameters_iff.2 ⟨descriptor.parameters, rfl, rfl⟩
    obtain ⟨shorter, hparameters⟩ := hparameters
    rw [hparameters]
    exact (takes_within_iff _).2 ⟨descriptor.result, takes_readResult_iff.2 hafter.symm, rfl⟩

theorem parseAll_read_iff {descriptor : String} {parsed : MethodDescriptor BinaryName} :
    parseAll MethodDescriptor.read descriptor = .ok parsed ↔ descriptor = String.ofList parsed.render := by
  rw [parseAll_eq_ok_iff, takes_read_iff, List.append_nil, ← String.toList_inj, String.toList_ofList]

end MethodDescriptor

end ClassSandbox
