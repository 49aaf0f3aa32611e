import Mathlib.Data.List.TakeWhile
import ClassSandbox.Proofs.Descriptor.RoundTrip

/-!
# Descriptors that are cut short

Some faults say that a text stops where it has to go on (`SyntaxFault.isTruncation`). The parsers find such a fault in
each proper front part of the descriptor of a field (`FieldType.stopsShort_parseAll`), and of that of a method, if
the part is not empty (`MethodDescriptor.stopsShort_parseAll`).
-/

namespace ClassSandbox

variable {α β : Type} {front back : List Char} {c : Char}

/-- A text was read that stops where it has to go on. -/
def StopsShort (result : Except SyntaxFault α) : Prop :=
  ∃ fault, result = .error fault ∧ fault.isTruncation = true

theorem StopsShort.map {result : Except SyntaxFault α} (h : StopsShort result) (f : α → β) :
    StopsShort (result.map f) := by
  obtain ⟨fault, rfl, hstops⟩ := h
  exact ⟨fault, rfl, hstops⟩

/-- Two texts in a row are cut in the second one, or else before the end of the first. -/
theorem exists_of_append_eq {first second : List Char} (h : first ++ second = front ++ back) :
    (∃ more, front = first ++ more ∧ second = more ++ back) ∨ ∃ c more, first = front ++ c :: more := by
  rcases List.append_eq_append_iff.1 h with hsecond | ⟨_ | ⟨c, more⟩, hfirst, hback⟩
  · exact .inl hsecond
  · exact .inl ⟨[], by simpa using hfirst.symm, by simpa using hback.symm⟩
  · exact .inr ⟨c, more, hfirst⟩

theorem stopsShort_parseAll_of_read {parser : Parser α} {text : String} (h : StopsShort (parser text.toList)) :
    StopsShort (parseAll parser text) := by
  obtain ⟨fault, hread, hstops⟩ := h
  exact ⟨fault, by rw [parseAll, hread], hstops⟩

/-! ## Types -/

/-- Without its semicolon, a class does not end. -/
theorem BinaryName.stopsShort_read {name : BinaryName} (h : renderClass name = 'L' :: front ++ c :: back) :
    StopsShort (BinaryName.read ('L' :: front)) := by
  have hfront : front <+: name.text.toList := by
    have hwhole : name.text.toList ++ [';'] = front ++ c :: back := List.tail_eq_of_cons_eq h
    rcases List.prefix_concat_iff.1 (hwhole ▸ List.prefix_append front (c :: back)) with hall | hinside
    · rw [hall] at hwhole
      simp at hwhole
    · exact hinside
  have hdrop : front.dropWhile (· != ';') = [] :=
    List.dropWhile_eq_nil_iff.2 fun c hmem => name.ne_semicolon_of_mem c (hfront.subset hmem)
  rw [BinaryName.read]
  split
  · exact ⟨_, rfl, rfl⟩
  · rename_i hscan
    rw [hdrop] at hscan
    cases hscan

namespace RefType

theorem stopsShort_read_array {extraDims : Nat} {element : List Char} (hstop : element.head? ≠ some '[')
    (h : if element.head? = some 'L' then StopsShort (BinaryName.read element) else StopsShort (BaseType.read element)) :
    StopsShort (RefType.read (List.replicate (extraDims + 1) '[' ++ element)) := by
  obtain ⟨htake, hdrop⟩ := scan_replicate_append extraDims hstop
  rw [List.replicate_succ, List.cons_append, RefType.read, if_neg (by decide), if_pos rfl]
  simp only [htake, hdrop]
  split <;> rename_i hclass
  · rw [if_pos hclass] at h
    refine StopsShort.map ?_ _
    rwa [hdrop]
  · rw [if_neg hclass] at h
    refine StopsShort.map ?_ _
    rwa [hdrop]

/-- An array of an element that is no array itself is cut among its brackets, or in the element. -/
theorem stopsShort_read_front {extraDims : Nat} {element : List Char} (hstop : element.head? ≠ some '[')
    (hcut : ∀ {inside}, inside ≠ [] → element = inside ++ c :: back →
      inside.head? = some 'L' ∧ StopsShort (BinaryName.read inside))
    (h : List.replicate (extraDims + 1) '[' ++ element = front ++ c :: back) : StopsShort (RefType.read front) := by
  obtain ⟨dimensions, inside, rfl, hinside⟩ := exists_eq_replicate_append '[' front
  cases dimensions with
  | zero =>
    cases inside with
    | nil => exact ⟨_, rfl, rfl⟩
    | cons d inside =>
      rw [List.replicate_succ] at h
      exact absurd (congrArg some (List.cons.inj h).1.symm) hinside
  | succ dimensions =>
    refine stopsShort_read_array hinside ?_
    cases inside with
    | nil => exact ⟨_, rfl, rfl⟩
    | cons d inside =>
      -- All the brackets are there, since another character follows them.
      have helement : element = (d :: inside) ++ c :: back := by
        have hdrop := (scan_replicate_append (extraDims + 1) hstop).2
        rw [h, List.append_assoc, (scan_replicate_append (dimensions + 1) (by simpa using hinside)).2] at hdrop
        exact hdrop.symm
      obtain ⟨hclass, hshort⟩ := hcut (List.cons_ne_nil d inside) helement
      rwa [if_pos hclass]

/-- What is cut short of a class or an array. -/
theorem stopsShort_read {type : RefType BinaryName} (h : type.render = front ++ c :: back) :
    StopsShort (RefType.read front) := by
  cases type with
  | object name =>
    cases front with
    | nil => exact ⟨_, rfl, rfl⟩
    | cons d front =>
      obtain rfl : 'L' = d := (List.cons.inj h).1
      exact (BinaryName.stopsShort_read h).map _
  | objectArray extraDims element =>
    refine stopsShort_read_front (by simp [renderClass]) (fun {inside} hne hcut => ?_) h
    obtain ⟨d, inside, rfl⟩ := List.exists_cons_of_ne_nil hne
    obtain rfl : 'L' = d := (List.cons.inj hcut).1
    exact ⟨rfl, BinaryName.stopsShort_read hcut⟩
  | baseArray extraDims element =>
    have hletter : element.letter ≠ '[' := by cases element <;> decide
    refine stopsShort_read_front (by simpa using hletter) (fun {inside} hne hcut => ?_) h
    have hlength := congrArg List.length hcut
    have hpos := List.length_pos_iff.2 hne
    simp at hlength
    omega

end RefType

namespace FieldType

theorem stopsShort_read {type : FieldType BinaryName} (h : type.render = front ++ c :: back) :
    StopsShort (FieldType.read front) := by
  cases front with
  | nil => exact ⟨_, rfl, rfl⟩
  | cons d front =>
    cases type with
    | base type => simp [render] at h
    | ref type =>
      obtain ⟨d', after, htext, hstart⟩ := type.exists_render_eq_cons []
      rw [List.append_nil] at htext
      obtain rfl : d' = d := (List.cons.inj (htext.symm.trans h)).1
      rw [FieldType.read, if_pos hstart]
      exact (RefType.stopsShort_read h).map _

/-- The descriptor of a field that is cut before its end stops short. -/
theorem stopsShort_parseAll {type : FieldType BinaryName} {front back : String}
    (h : String.ofList type.render = front ++ back) (hback : back ≠ "") :
    StopsShort (parseAll FieldType.read front) := by
  have hlists : type.render = front.toList ++ back.toList := by
    rw [← String.toList_append, ← h, String.toList_ofList]
  obtain ⟨c, rest, hrest⟩ := List.exists_cons_of_ne_nil (l := back.toList) (by simpa using hback)
  rw [hrest] at hlists
  exact stopsShort_parseAll_of_read (stopsShort_read hlists)

end FieldType

/-! ## Methods -/

namespace MethodDescriptor

/-- Parameters behind which nothing closes them. -/
theorem stopsShort_readParameters {whole : List Char} {types seen : List (FieldType BinaryName)}
    (part : front.length ≤ whole.length) (h : types.flatMap FieldType.render = front ++ back) :
    StopsShort (readParameters front part seen) := by
  induction types generalizing front seen with
  | nil =>
    obtain rfl : front = [] := (List.append_eq_nil_iff.1 h.symm).1
    rw [readParameters.eq_def]
    exact ⟨_, rfl, rfl⟩
  | cons type types ih =>
    cases front with
    | nil =>
      rw [readParameters.eq_def]
      exact ⟨_, rfl, rfl⟩
    | cons d front =>
      rw [List.flatMap_cons] at h
      obtain ⟨d', after, htext, hclose, -⟩ := type.exists_render_eq_cons (types.flatMap FieldType.render)
      obtain rfl : d' = d := (List.cons.inj (htext.symm.trans h)).1
      rcases exists_of_append_eq h with ⟨more, hmore, htypes⟩ | ⟨c, more, hcut⟩
      · obtain ⟨shorter, hread⟩ := FieldType.takes_read_iff.2 hmore
        rw [readParameters, hread]
        · exact ih _ htypes
        · exact hclose
      · obtain ⟨fault, hread, hshort⟩ := FieldType.stopsShort_read hcut
        rw [readParameters, hread]
        · exact ⟨fault, rfl, hshort⟩
        · exact hclose

theorem stopsShort_readResult {result : Option (FieldType BinaryName)}
    (h : result.elim ['V'] FieldType.render = front ++ c :: back) : StopsShort (readResult front) := by
  cases front with
  | nil => exact ⟨_, rfl, rfl⟩
  | cons d front =>
    cases result with
    | none => simp at h
    | some type =>
      rw [Option.elim_some] at h
      obtain ⟨d', after, htext, -, hvoid⟩ := type.exists_render_eq_cons []
      rw [List.append_nil] at htext
      obtain rfl : d' = d := (List.cons.inj (htext.symm.trans h)).1
      rw [readResult]
      · exact (FieldType.stopsShort_read h).map _
      · rintro _ ⟨⟩
        exact hvoid rfl

theorem stopsShort_read {descriptor : MethodDescriptor BinaryName}
    (h : descriptor.render = '(' :: front ++ c :: back) : StopsShort (MethodDescriptor.read ('(' :: front)) := by
  have hrender : descriptor.render = '(' :: (descriptor.parameters.flatMap FieldType.render ++
      ')' :: descriptor.result.elim ['V'] FieldType.render) := by
    rw [render]
    cases descriptor.result <;> simp
  rw [hrender] at h
  rw [MethodDescriptor.read]
  -- The cut is behind the parameters, and then in the result, or else among the parameters.
  rcases exists_of_append_eq (List.cons.inj h).2 with ⟨_ | ⟨d, more⟩, hfront, hrest⟩ | ⟨d, more, hcut⟩
  · have hcut : descriptor.parameters.flatMap FieldType.render = front ++ [] := by simpa using hfront.symm
    obtain ⟨fault, hread, hshort⟩ := stopsShort_readParameters (Nat.le_refl _) hcut
    rw [hread]
    exact ⟨fault, rfl, hshort⟩
  · obtain ⟨rfl, hresult⟩ := List.cons.inj hrest
    obtain ⟨shorter, hread⟩ := takes_readParameters_iff.2 ⟨descriptor.parameters, rfl, hfront⟩
    rw [hread]
    exact (stopsShort_readResult hresult).map _
  · obtain ⟨fault, hread, hshort⟩ := stopsShort_readParameters (Nat.le_refl _) hcut
    rw [hread]
    exact ⟨fault, rfl, hshort⟩

/-- The descriptor of a method that is cut somewhere in it stops short. -/
theorem stopsShort_parseAll {descriptor : MethodDescriptor BinaryName} {front back : String}
    (h : String.ofList descriptor.render = front ++ back) (hfront : front ≠ "") (hback : back ≠ "") :
    StopsShort (parseAll MethodDescriptor.read front) := by
  have hlists : descriptor.render = front.toList ++ back.toList := by
    rw [← String.toList_append, ← h, String.toList_ofList]
  obtain ⟨d, inside, hinside⟩ := List.exists_cons_of_ne_nil (l := front.toList) (by simpa using hfront)
  obtain ⟨c, rest, hrest⟩ := List.exists_cons_of_ne_nil (l := back.toList) (by simpa using hback)
  rw [hinside, hrest] at hlists
  obtain rfl : '(' = d := (List.cons.inj hlists).1
  refine stopsShort_parseAll_of_read ?_
  rw [hinside]
  exact stopsShort_read hlists

end MethodDescriptor

end ClassSandbox
