import ClassSandbox.Proofs.Signature.RoundTrip

/-!
# Signatures of classes and methods are read as they are written

What a class or a method declares is read to its end exactly when it is well-formed and the text is what is
written for it (`GenericSignature.parseAll_read_iff`). Beyond the types in it, a declaration is well-formed if no
thrown type is an array, and if each type parameter can be told apart from the next one: without any bound it ends
with a colon, after which a name may look like the start of a bound (`WellFormedParameters`).

Each loop is related to the list that it appends to what it has `seen`.
-/

namespace ClassSandbox

variable {text rest : List Char}

/-! ## Well-formed declarations -/

def TypeParameter.WellFormed (parameter : TypeParameter) : Prop :=
  IsIdentifier parameter.name ∧ (∀ bound ∈ parameter.classBound, bound.WellFormed) ∧
    ∀ bound ∈ parameter.interfaceBounds, bound.WellFormed

/-- Nothing is written after the colon that follows the name. -/
def TypeParameter.IsBare (parameter : TypeParameter) : Prop :=
  parameter.classBound = none ∧ parameter.interfaceBounds = []

/-- The name of a parameter is not taken for a bound of the one before it. -/
def WellFormedParameters : List TypeParameter → Prop
  | [] => True
  | parameter :: rest => parameter.WellFormed ∧
      (parameter.IsBare → ∀ next ∈ rest.head?, startsReference next.name.toList = false) ∧
      WellFormedParameters rest

theorem wellFormed_of_mem_parameters {parameters : List TypeParameter} (h : WellFormedParameters parameters) :
    ∀ parameter ∈ parameters, parameter.WellFormed := by
  induction parameters with
  | nil => exact nofun
  | cons parameter parameters ih => exact List.forall_mem_cons.2 ⟨h.1, ih h.2.2⟩

/-- Anything but an array may be thrown. -/
def ReferenceSignature.IsThrowable : ReferenceSignature → Prop
  | .array _ => False
  | _ => True

structure ClassSignature.WellFormed (signature : ClassSignature) : Prop where
  typeParameters : WellFormedParameters signature.typeParameters
  superclass : signature.superclass.WellFormed
  superinterfaces : ∀ type ∈ signature.superinterfaces, type.WellFormed

structure MethodSignature.WellFormed (signature : MethodSignature) : Prop where
  typeParameters : WellFormedParameters signature.typeParameters
  parameters : ∀ type ∈ signature.parameters, type.WellFormed
  result : ∀ type ∈ signature.result, type.WellFormed
  throws : ∀ type ∈ signature.throws, type.WellFormed ∧ type.IsThrowable

def GenericSignature.WellFormed : GenericSignature → Prop
  | .ofClass signature => signature.WellFormed
  | .ofMethod signature => signature.WellFormed

/-! ## Type parameters -/

theorem takes_readBounds_iff {whole : List Char} {part : text.length < whole.length}
    {seen bounds : List ReferenceSignature} :
    Takes (readBounds text part seen) bounds rest ↔
      ∃ more, bounds = seen.reverse ++ more ∧ (∀ bound ∈ more, bound.WellFormed) ∧
        text = (more.flatMap fun bound => ':' :: bound.render) ++ rest ∧ rest.head? ≠ some ':' := by
  constructor
  · intro h
    fun_induction readBounds text part seen with
    | case1 =>
      obtain ⟨rfl, rfl⟩ := takes_ok_iff.1 h
      exact ⟨[], (List.append_nil _).symm, nofun, rfl, nofun⟩
    | case2 => exact absurd h not_takes_error
    | case3 seen inside part bound after shorter hread _ ih =>
      obtain ⟨more, rfl, hmore, rfl, hstop⟩ := ih h
      obtain ⟨hbound, htext⟩ := ReferenceSignature.of_takes_read ⟨shorter, hread⟩
      refine ⟨bound :: more, by simp, List.forall_mem_cons.2 ⟨hbound, hmore⟩, ?_, hstop⟩
      rw [htext]
      simp
    | case4 seen c inside part hother =>
      obtain ⟨rfl, rfl⟩ := takes_ok_iff.1 h
      refine ⟨[], (List.append_nil _).symm, nofun, rfl, ?_⟩
      rintro ⟨⟩
      exact hother rfl
  · rintro ⟨more, rfl, hmore, htext, hstop⟩
    induction more generalizing text seen with
    | nil =>
      obtain rfl : text = rest := htext
      cases text with
      | nil =>
        rw [readBounds]
        exact takes_ok_iff.2 ⟨(List.append_nil _).symm, rfl⟩
      | cons c rest =>
        rw [readBounds]
        · exact takes_ok_iff.2 ⟨(List.append_nil _).symm, rfl⟩
        · rintro rfl
          exact hstop rfl
    | cons bound more ih =>
      rw [List.forall_mem_cons] at hmore
      obtain rfl : text = ':' :: (bound.render ++ ((more.flatMap fun bound => ':' :: bound.render) ++ rest)) := by
        rw [htext]
        simp
      obtain ⟨shorter, hread⟩ := bound.takes_read hmore.1 _
      have hreverse : seen.reverse ++ bound :: more = (bound :: seen).reverse ++ more := by simp
      rw [readBounds, hread, hreverse]
      exact ih hmore.2 rfl

theorem TypeParameter.of_takes_read {parameter : TypeParameter} (h : Takes (TypeParameter.read text) parameter rest) :
    parameter.WellFormed ∧ text = parameter.render ++ rest ∧ rest.head? ≠ some ':' ∧
      (parameter.IsBare → startsReference rest = false) := by
  unfold TypeParameter.read at h
  split at h
  · exact absurd h not_takes_error
  · rename_i hname
    split at h
    · exact absurd h not_takes_error
    · rename_i hmark
      obtain ⟨hidentifier, htext, -⟩ := (takes_readIdentifier_iff (by decide)).1 ⟨_, hname⟩
      rw [takes_readMark_iff.1 ⟨_, hmark⟩] at htext
      dsimp only at h
      split at h
      · split at h
        · exact absurd h not_takes_error
        · rename_i hbound
          obtain ⟨bounds, hbounds, rfl⟩ := takes_map_iff.1 h
          obtain ⟨_, rfl, hmore, hrest, hstop⟩ := takes_readBounds_iff.1 hbounds
          obtain ⟨hclass, hothers⟩ := ReferenceSignature.of_takes_read ⟨_, hbound⟩
          refine ⟨⟨hidentifier, by simpa using hclass, hmore⟩, ?_, hstop, ?_⟩
          · rw [htext, hothers, hrest]
            simp [TypeParameter.render]
          · rintro ⟨hbare, -⟩
            cases hbare
      · rename_i hplain
        obtain ⟨bounds, hbounds, rfl⟩ := takes_map_iff.1 h
        obtain ⟨_, rfl, hmore, hrest, hstop⟩ := takes_readBounds_iff.1 hbounds
        refine ⟨⟨hidentifier, ?_, hmore⟩, ?_, hstop, ?_⟩
        · rintro _ ⟨⟩
        · rw [htext, hrest]
          simp [TypeParameter.render]
        · -- What follows a bare parameter is what was not taken for its bound.
          rintro ⟨-, rfl⟩
          rw [hrest] at hplain
          simpa using hplain

theorem TypeParameter.takes_read {parameter : TypeParameter} (hwell : parameter.WellFormed)
    (htext : text = parameter.render ++ rest) (hstop : rest.head? ≠ some ':')
    (hbare : parameter.IsBare → startsReference rest = false) : Takes (TypeParameter.read text) parameter rest := by
  obtain ⟨hname, hclass, hmore⟩ := hwell
  obtain ⟨name, _ | bound, bounds⟩ := parameter
  · have hstart : startsReference ((bounds.flatMap fun bound => ':' :: bound.render) ++ rest) = false := by
      cases bounds with
      | nil => exact hbare ⟨rfl, rfl⟩
      | cons bound bounds => rfl
    replace htext : text = name.toList ++ ':' :: ((bounds.flatMap fun bound => ':' :: bound.render) ++ rest) := by
      simpa [TypeParameter.render] using htext
    obtain ⟨shorter, hread⟩ : Takes (readIdentifier [':'] text) name _ :=
      (takes_readIdentifier_iff (by decide)).2 ⟨hname, htext, ':', by simp, rfl⟩
    obtain ⟨shorter', hmark⟩ := takes_readMark ':' ((bounds.flatMap fun bound => ':' :: bound.render) ++ rest)
    rw [TypeParameter.read, hread]
    simp only [hmark, hstart, Bool.false_eq_true, if_false]
    exact takes_map_iff.2 ⟨bounds, takes_readBounds_iff.2 ⟨bounds, (List.nil_append _).symm, hmore, rfl, hstop⟩, rfl⟩
  · obtain ⟨c, after, hcons, hstart⟩ :=
      bound.exists_render_eq_cons ((bounds.flatMap fun bound => ':' :: bound.render) ++ rest)
    rw [← hcons] at hstart
    replace htext : text =
        name.toList ++ ':' :: (bound.render ++ ((bounds.flatMap fun bound => ':' :: bound.render) ++ rest)) := by
      simpa [TypeParameter.render] using htext
    obtain ⟨shorter, hread⟩ : Takes (readIdentifier [':'] text) name _ :=
      (takes_readIdentifier_iff (by decide)).2 ⟨hname, htext, ':', by simp, rfl⟩
    obtain ⟨shorter', hmark⟩ := takes_readMark ':'
      (bound.render ++ ((bounds.flatMap fun bound => ':' :: bound.render) ++ rest))
    obtain ⟨_, hbound⟩ := bound.takes_read (hclass bound rfl)
      ((bounds.flatMap fun bound => ':' :: bound.render) ++ rest)
    rw [TypeParameter.read, hread]
    simp only [hmark, hstart, if_true, hbound]
    exact takes_map_iff.2 ⟨bounds, takes_readBounds_iff.2 ⟨bounds, (List.nil_append _).symm, hmore, rfl, hstop⟩, rfl⟩

theorem TypeParameter.WellFormed.exists_eq_cons {parameter : TypeParameter} (h : parameter.WellFormed) :
    ∃ c name, parameter.name.toList = c :: name ∧ isSignatureMark c = false := by
  obtain ⟨c, name, hname⟩ := List.exists_cons_of_ne_nil (l := parameter.name.toList) (by simpa using h.1.1)
  exact ⟨c, name, hname, h.1.2 c (by simp [hname])⟩

/-- What follows a parameter in a list. -/
theorem head?_parameters {parameters : List TypeParameter} (h : WellFormedParameters parameters)
    (rest : List Char) :
    (parameters.flatMap TypeParameter.render ++ '>' :: rest).head? ≠ some ':' ∧
      (startsReference (parameters.flatMap TypeParameter.render ++ '>' :: rest) = false ↔
        ∀ next ∈ parameters.head?, startsReference next.name.toList = false) := by
  cases parameters with
  | nil => simp [startsReference]
  | cons parameter more =>
    obtain ⟨c, name, hname, hmark⟩ := h.1.exists_eq_cons
    rw [List.flatMap_cons, TypeParameter.render, hname]
    constructor
    · rintro ⟨⟩
      cases hmark
    · simp [hname, startsReference]

theorem takes_readTypeParameterList_iff {whole : List Char} {part : text.length < whole.length}
    {seen parameters : List TypeParameter} :
    Takes (readTypeParameterList text part seen) parameters rest ↔
      ∃ more, parameters = seen.reverse ++ more ∧ WellFormedParameters more ∧
        text = more.flatMap TypeParameter.render ++ '>' :: rest := by
  constructor
  · intro h
    fun_induction readTypeParameterList text part seen with
    | case1 text part seen hclose =>
      obtain ⟨rfl, rfl⟩ := takes_ok_iff.1 h
      obtain ⟨after, rfl⟩ := List.head?_eq_some_iff.1 hclose
      exact ⟨[], (List.append_nil _).symm, trivial, rfl⟩
    | case2 => exact absurd h not_takes_error
    | case3 text part seen hopen parameter after shorter hread ih =>
      obtain ⟨more, rfl, hmore, rfl⟩ := ih h
      obtain ⟨hwell, htext, -, hbare⟩ := TypeParameter.of_takes_read ⟨shorter, hread⟩
      refine ⟨parameter :: more, by simp, ⟨hwell, fun hparameter => ?_, hmore⟩, ?_⟩
      · exact (head?_parameters hmore _).2.1 (hbare hparameter)
      · rw [htext, List.flatMap_cons, List.append_assoc]
  · rintro ⟨more, rfl, hmore, htext⟩
    induction more generalizing text seen with
    | nil =>
      obtain rfl : text = '>' :: rest := htext
      rw [readTypeParameterList, if_pos (show ('>' :: rest).head? = some '>' from rfl)]
      exact takes_ok_iff.2 ⟨(List.append_nil _).symm, rfl⟩
    | cons parameter more ih =>
      obtain ⟨hwell, hnext, hmore⟩ := hmore
      obtain rfl : text = parameter.render ++ (more.flatMap TypeParameter.render ++ '>' :: rest) := by
        rw [htext, List.flatMap_cons, List.append_assoc]
      have hopen : (parameter.render ++ (more.flatMap TypeParameter.render ++ '>' :: rest)).head? ≠ some '>' := by
        obtain ⟨c, name, hname, hmark⟩ := hwell.exists_eq_cons
        rw [TypeParameter.render, hname]
        rintro ⟨⟩
        cases hmark
      obtain ⟨hcolon, hstart⟩ := head?_parameters hmore rest
      obtain ⟨shorter, hread⟩ :=
        TypeParameter.takes_read hwell rfl hcolon fun hbare => hstart.2 (hnext hbare)
      have hreverse : seen.reverse ++ parameter :: more = (parameter :: seen).reverse ++ more := by simp
      rw [readTypeParameterList, if_neg hopen, hread, hreverse]
      exact ih hmore rfl

/-- Type parameters come before the declaration, in brackets, or there are none. -/
theorem takes_withTypeParameters_iff {α : Type} {body : List TypeParameter → Parser α} {value : α} :
    Takes (withTypeParameters body text) value rest ↔
      ∃ parameters inside, WellFormedParameters parameters ∧
        text = renderTypeParameters parameters ++ inside ∧ (parameters = [] → inside.head? ≠ some '<') ∧
        Takes (body parameters inside) value rest := by
  constructor
  · intro h
    unfold withTypeParameters at h
    split at h
    · split at h
      · exact absurd h not_takes_error
      · exact absurd h not_takes_error
      · rename_i parameters inside shorter hne hread
        obtain ⟨_, rfl, hwell, htext⟩ := takes_readTypeParameterList_iff.1 ⟨shorter, hread⟩
        refine ⟨_, inside, hwell, ?_, fun hnil => absurd hnil hne, takes_widen_iff.1 h⟩
        obtain ⟨parameter, more, rfl⟩ := List.exists_cons_of_ne_nil hne
        rw [htext]
        simp [renderTypeParameters]
    · rename_i hplain
      refine ⟨[], text, trivial, rfl, fun _ hopen => ?_, h⟩
      obtain ⟨after, rfl⟩ := List.head?_eq_some_iff.1 hopen
      exact hplain after rfl
  · rintro ⟨parameters, inside, hwell, htext, hplain, hbody⟩
    cases parameters with
    | nil =>
      obtain rfl : text = inside := htext
      unfold withTypeParameters
      split
      · exact absurd rfl (hplain rfl)
      · exact hbody
    | cons parameter more =>
      obtain rfl : text = '<' :: ((parameter :: more).flatMap TypeParameter.render ++ '>' :: inside) := by
        rw [htext]
        simp [renderTypeParameters]
      have part : ((parameter :: more).flatMap TypeParameter.render ++ '>' :: inside).length <
          ('<' :: ((parameter :: more).flatMap TypeParameter.render ++ '>' :: inside)).length := Nat.lt_succ_self _
      obtain ⟨shorter, hread⟩ : Takes (readTypeParameterList _ part []) (parameter :: more) inside :=
        takes_readTypeParameterList_iff.2 ⟨parameter :: more, rfl, hwell, rfl⟩
      rw [withTypeParameters, hread]
      exact takes_widen_iff.2 hbody

/-! ## Classes -/

theorem ClassTypeSignature.head?_render (type : ClassTypeSignature) (rest : List Char) :
    (type.render ++ rest).head? = some 'L' := by
  obtain ⟨outer, projections⟩ := type
  rfl

theorem takes_readSuperinterfaces_iff {whole : List Char} {part : text.length < whole.length}
    {seen types : List ClassTypeSignature} :
    Takes (readSuperinterfaces text part seen) types rest ↔
      ∃ more, types = seen.reverse ++ more ∧ (∀ type ∈ more, type.WellFormed) ∧
        text = more.flatMap ClassTypeSignature.render ∧ rest = [] := by
  constructor
  · intro h
    fun_induction readSuperinterfaces text part seen with
    | case1 =>
      obtain ⟨rfl, rfl⟩ := takes_ok_iff.1 h
      exact ⟨[], (List.append_nil _).symm, nofun, rfl, rfl⟩
    | case2 => exact absurd h not_takes_error
    | case3 seen c inside part type after shorter hread _ ih =>
      obtain ⟨more, rfl, hmore, rfl, hend⟩ := ih h
      obtain ⟨hwell, htext⟩ := ClassTypeSignature.of_takes_read ⟨shorter, hread⟩
      exact ⟨type :: more, by simp, List.forall_mem_cons.2 ⟨hwell, hmore⟩, htext, hend⟩
  · rintro ⟨more, rfl, hmore, htext, rfl⟩
    induction more generalizing text seen with
    | nil =>
      obtain rfl : text = [] := htext
      rw [readSuperinterfaces]
      exact takes_ok_iff.2 ⟨(List.append_nil _).symm, rfl⟩
    | cons type more ih =>
      rw [List.forall_mem_cons] at hmore
      obtain rfl : text = type.render ++ more.flatMap ClassTypeSignature.render := htext
      obtain ⟨after, hcons⟩ := List.head?_eq_some_iff.1
        (type.head?_render (more.flatMap ClassTypeSignature.render))
      obtain ⟨shorter, hread⟩ := type.takes_read hmore.1 (more.flatMap ClassTypeSignature.render)
      have hreverse : seen.reverse ++ type :: more = (type :: seen).reverse ++ more := by simp
      revert part shorter
      rw [hcons]
      intro part shorter hread
      rw [readSuperinterfaces, hread, hreverse]
      exact ih hmore.2 rfl

theorem ClassSignature.takes_readBody_iff {parameters : List TypeParameter} {signature : ClassSignature} :
    Takes (ClassSignature.readBody parameters text) signature rest ↔
      signature.typeParameters = parameters ∧ signature.superclass.WellFormed ∧
        (∀ type ∈ signature.superinterfaces, type.WellFormed) ∧
        text = signature.superclass.render ++ signature.superinterfaces.flatMap ClassTypeSignature.render ∧
        rest = [] := by
  constructor
  · intro h
    unfold ClassSignature.readBody at h
    split at h
    · exact absurd h not_takes_error
    · rename_i hsuperclass
      obtain ⟨types, htypes, rfl⟩ := takes_map_iff.1 h
      obtain ⟨_, rfl, hwell, rfl, hend⟩ := takes_readSuperinterfaces_iff.1 htypes
      obtain ⟨hclass, htext⟩ := ClassTypeSignature.of_takes_read ⟨_, hsuperclass⟩
      exact ⟨rfl, hclass, hwell, htext, hend⟩
  · rintro ⟨rfl, hclass, hwell, rfl, rfl⟩
    obtain ⟨shorter, hread⟩ := signature.superclass.takes_read hclass
      (signature.superinterfaces.flatMap ClassTypeSignature.render)
    rw [ClassSignature.readBody, hread]
    exact takes_map_iff.2 ⟨_, takes_readSuperinterfaces_iff.2
      ⟨_, (List.nil_append _).symm, hwell, rfl, rfl⟩, rfl⟩

/-! ## Methods -/

/-- A type does not start like the end of the parameters, or like the result that is none. -/
theorem TypeSignature.head?_render_ne (type : TypeSignature) (rest : List Char) :
    (type.render ++ rest).head? ≠ some ')' ∧ (type.render ++ rest).head? ≠ some 'V' := by
  cases type with
  | base type => cases type <;> simp [TypeSignature.render, BaseType.letter]
  | reference type =>
    obtain ⟨c, after, hcons, hstart⟩ := type.exists_render_eq_cons rest
    rw [TypeSignature.render, hcons]
    constructor <;>
    · rintro ⟨⟩
      cases hstart

theorem ReferenceSignature.isThrowable_iff {type : ReferenceSignature} :
    type.IsThrowable ↔ ∀ element, type = .array element → False := by
  cases type <;> simp [IsThrowable]

namespace MethodSignature

theorem takes_readParameters_iff {whole : List Char} {part : text.length < whole.length}
    {seen types : List TypeSignature} :
    Takes (readParameters text part seen) types rest ↔
      ∃ more, types = seen.reverse ++ more ∧ (∀ type ∈ more, type.WellFormed) ∧
        text = more.flatMap TypeSignature.render ++ ')' :: rest := by
  constructor
  · intro h
    fun_induction readParameters text part seen with
    | case1 text part seen hclose =>
      obtain ⟨rfl, rfl⟩ := takes_ok_iff.1 h
      obtain ⟨after, rfl⟩ := List.head?_eq_some_iff.1 hclose
      exact ⟨[], (List.append_nil _).symm, nofun, rfl⟩
    | case2 => exact absurd h not_takes_error
    | case3 text part seen hopen type after shorter hread ih =>
      obtain ⟨more, rfl, hmore, rfl⟩ := ih h
      obtain ⟨hwell, htext⟩ := TypeSignature.of_takes_read ⟨shorter, hread⟩
      refine ⟨type :: more, by simp, List.forall_mem_cons.2 ⟨hwell, hmore⟩, ?_⟩
      rw [htext, List.flatMap_cons, List.append_assoc]
  · rintro ⟨more, rfl, hmore, htext⟩
    induction more generalizing text seen with
    | nil =>
      obtain rfl : text = ')' :: rest := htext
      rw [readParameters, if_pos (show (')' :: rest).head? = some ')' from rfl)]
      exact takes_ok_iff.2 ⟨(List.append_nil _).symm, rfl⟩
    | cons type more ih =>
      rw [List.forall_mem_cons] at hmore
      obtain rfl : text = type.render ++ (more.flatMap TypeSignature.render ++ ')' :: rest) := by
        rw [htext, List.flatMap_cons, List.append_assoc]
      obtain ⟨shorter, hread⟩ := type.takes_read hmore.1 (more.flatMap TypeSignature.render ++ ')' :: rest)
      have hreverse : seen.reverse ++ type :: more = (type :: seen).reverse ++ more := by simp
      rw [readParameters, if_neg (type.head?_render_ne _).1, hread, hreverse]
      exact ih hmore.2 rfl

theorem takes_readResult_iff {result : Option TypeSignature} :
    Takes (readResult text) result rest ↔
      (∀ type ∈ result, type.WellFormed) ∧ text = result.elim ['V'] TypeSignature.render ++ rest := by
  unfold readResult
  split
  · rename_i after
    rw [takes_ok_iff]
    constructor
    · rintro ⟨rfl, rfl⟩
      exact ⟨nofun, rfl⟩
    · rintro ⟨-, htext⟩
      cases result with
      | none =>
        obtain ⟨-, rfl⟩ := List.cons.inj htext
        exact ⟨rfl, rfl⟩
      | some type => exact absurd (htext ▸ rfl) (type.head?_render_ne rest).2
  · rename_i hplain
    rw [takes_map_iff]
    constructor
    · rintro ⟨type, htype, rfl⟩
      obtain ⟨hwell, htext⟩ := TypeSignature.of_takes_read htype
      exact ⟨by simpa using hwell, htext⟩
    · rintro ⟨hwell, htext⟩
      cases result with
      | none => exact absurd htext (hplain rest)
      | some type => exact ⟨type, htext ▸ type.takes_read (hwell type rfl) rest, rfl⟩

theorem takes_readThrows_iff {whole : List Char} {part : text.length < whole.length}
    {seen types : List ReferenceSignature} :
    Takes (readThrows text part seen) types rest ↔
      ∃ more, types = seen.reverse ++ more ∧ (∀ type ∈ more, type.WellFormed ∧ type.IsThrowable) ∧
        text = (more.flatMap fun thrown => '^' :: thrown.render) ++ rest ∧ rest.head? ≠ some '^' := by
  constructor
  · intro h
    fun_induction readThrows text part seen with
    | case1 =>
      obtain ⟨rfl, rfl⟩ := takes_ok_iff.1 h
      exact ⟨[], (List.append_nil _).symm, nofun, rfl, nofun⟩
    | case2 | case3 => exact absurd h not_takes_error
    | case4 seen inside part thrown after shorter hthrowable hread _ ih =>
      obtain ⟨more, rfl, hmore, rfl, hstop⟩ := ih h
      obtain ⟨hwell, htext⟩ := ReferenceSignature.of_takes_read ⟨shorter, hread⟩
      refine ⟨thrown :: more, by simp, List.forall_mem_cons.2
        ⟨⟨hwell, ReferenceSignature.isThrowable_iff.2 hthrowable⟩, hmore⟩, ?_, hstop⟩
      rw [htext]
      simp
    | case5 seen c inside part hother =>
      obtain ⟨rfl, rfl⟩ := takes_ok_iff.1 h
      refine ⟨[], (List.append_nil _).symm, nofun, rfl, ?_⟩
      rintro ⟨⟩
      exact hother rfl
  · rintro ⟨more, rfl, hmore, htext, hstop⟩
    induction more generalizing text seen with
    | nil =>
      obtain rfl : text = rest := htext
      cases text with
      | nil =>
        rw [readThrows]
        exact takes_ok_iff.2 ⟨(List.append_nil _).symm, rfl⟩
      | cons c rest =>
        rw [readThrows]
        · exact takes_ok_iff.2 ⟨(List.append_nil _).symm, rfl⟩
        · rintro rfl
          exact hstop rfl
    | cons thrown more ih =>
      rw [List.forall_mem_cons] at hmore
      obtain rfl : text = '^' :: (thrown.render ++ ((more.flatMap fun thrown => '^' :: thrown.render) ++ rest)) := by
        rw [htext]
        simp
      obtain ⟨shorter, hread⟩ := thrown.takes_read hmore.1.1 _
      have hreverse : seen.reverse ++ thrown :: more = (thrown :: seen).reverse ++ more := by simp
      rw [readThrows, hread, hreverse]
      cases thrown with
      | array element => exact hmore.1.2.elim
      | _ => exact ih hmore.2 rfl

theorem takes_readBody_iff {parameters : List TypeParameter} {signature : MethodSignature} :
    Takes (readBody parameters text) signature rest ↔
      signature.typeParameters = parameters ∧ (∀ type ∈ signature.parameters, type.WellFormed) ∧
        (∀ type ∈ signature.result, type.WellFormed) ∧
        (∀ type ∈ signature.throws, type.WellFormed ∧ type.IsThrowable) ∧
        text = '(' :: signature.parameters.flatMap TypeSignature.render ++
          ')' :: signature.result.elim ['V'] TypeSignature.render ++
          (signature.throws.flatMap fun thrown => '^' :: thrown.render) ++ rest ∧
        rest.head? ≠ some '^' := by
  constructor
  · intro h
    unfold readBody at h
    split at h
    · exact absurd h not_takes_error
    · rename_i hopen
      split at h
      · exact absurd h not_takes_error
      · rename_i hparameters
        split at h
        · exact absurd h not_takes_error
        · rename_i hresult
          obtain ⟨types, hthrows, rfl⟩ := takes_map_iff.1 h
          obtain ⟨_, rfl, hthrowable, htext, hstop⟩ := takes_readThrows_iff.1 hthrows
          obtain ⟨hwell, htext'⟩ := takes_readResult_iff.1 ⟨_, hresult⟩
          obtain ⟨_, rfl, htypes, htext''⟩ := takes_readParameters_iff.1 ⟨_, hparameters⟩
          refine ⟨rfl, htypes, hwell, hthrowable, ?_, hstop⟩
          rw [takes_readMark_iff.1 ⟨_, hopen⟩, htext'', htext', htext]
          simp
  · rintro ⟨rfl, htypes, hwell, hthrowable, htext, hstop⟩
    obtain rfl : text = '(' :: (signature.parameters.flatMap TypeSignature.render ++
        ')' :: (signature.result.elim ['V'] TypeSignature.render ++
          ((signature.throws.flatMap fun thrown => '^' :: thrown.render) ++ rest))) := by
      rw [htext]
      simp
    obtain ⟨shorter, hopen⟩ := takes_readMark '(' (signature.parameters.flatMap TypeSignature.render ++
      ')' :: (signature.result.elim ['V'] TypeSignature.render ++
        ((signature.throws.flatMap fun thrown => '^' :: thrown.render) ++ rest)))
    obtain ⟨shorter', hparameters⟩ : Takes (readParameters _ shorter []) signature.parameters _ :=
      takes_readParameters_iff.2 ⟨_, (List.nil_append _).symm, htypes, rfl⟩
    obtain ⟨shorter'', hresult⟩ : Takes (readResult _) signature.result
        ((signature.throws.flatMap fun thrown => '^' :: thrown.render) ++ rest) :=
      takes_readResult_iff.2 ⟨hwell, rfl⟩
    rw [readBody, hopen]
    simp only [hparameters, hresult]
    exact takes_map_iff.2 ⟨_, takes_readThrows_iff.2
      ⟨_, (List.nil_append _).symm, hthrowable, rfl, hstop⟩, rfl⟩

end MethodSignature

/-! ## Either -/

/-- A signature is read to its end only if it was written for a well-formed declaration. -/
theorem GenericSignature.parseAll_read_iff {signature : String} {generic : GenericSignature} :
    parseAll GenericSignature.read signature = .ok generic ↔
      generic.WellFormed ∧ signature = String.ofList generic.render := by
  rw [parseAll_eq_ok_iff, GenericSignature.read, takes_withTypeParameters_iff, ← String.toList_inj,
    String.toList_ofList]
  constructor
  · rintro ⟨parameters, inside, hparameters, htext, -, hbody⟩
    unfold GenericSignature.readBody at hbody
    split at hbody
    · obtain ⟨method, hmethod, rfl⟩ := takes_map_iff.1 hbody
      obtain ⟨rfl, htypes, hresult, hthrows, rfl, -⟩ := MethodSignature.takes_readBody_iff.1 hmethod
      refine ⟨⟨hparameters, htypes, hresult, hthrows⟩, ?_⟩
      rw [htext]
      simp [GenericSignature.render, MethodSignature.render]
    · obtain ⟨declared, hclass, rfl⟩ := takes_map_iff.1 hbody
      obtain ⟨rfl, hsuperclass, hsuperinterfaces, rfl, -⟩ := ClassSignature.takes_readBody_iff.1 hclass
      refine ⟨⟨hparameters, hsuperclass, hsuperinterfaces⟩, ?_⟩
      rw [htext]
      simp [GenericSignature.render, ClassSignature.render]
  · rintro ⟨hwell, htext⟩
    cases generic with
    | ofMethod method =>
      obtain ⟨hparameters, htypes, hresult, hthrows⟩ : method.WellFormed := hwell
      refine ⟨method.typeParameters, '(' :: method.parameters.flatMap TypeSignature.render ++
          ')' :: method.result.elim ['V'] TypeSignature.render ++
          method.throws.flatMap fun thrown => '^' :: thrown.render, hparameters, ?_, by simp, ?_⟩
      · rw [htext]
        simp [GenericSignature.render, MethodSignature.render]
      · rw [GenericSignature.readBody, if_pos (by simp)]
        exact takes_map_iff.2 ⟨method, MethodSignature.takes_readBody_iff.2
          ⟨rfl, htypes, hresult, hthrows, (List.append_nil _).symm, nofun⟩, rfl⟩
    | ofClass declared =>
      obtain ⟨hparameters, hsuperclass, hsuperinterfaces⟩ : declared.WellFormed := hwell
      have hhead := declared.superclass.head?_render
        (declared.superinterfaces.flatMap ClassTypeSignature.render)
      refine ⟨declared.typeParameters, declared.superclass.render ++
          declared.superinterfaces.flatMap ClassTypeSignature.render, hparameters, ?_, ?_, ?_⟩
      · rw [htext]
        simp [GenericSignature.render, ClassSignature.render]
      · rw [hhead]
        rintro - ⟨⟩
      · rw [GenericSignature.readBody, if_neg (by rw [hhead]; rintro ⟨⟩)]
        exact takes_map_iff.2 ⟨declared, ClassSignature.takes_readBody_iff.2
          ⟨rfl, hsuperclass, hsuperinterfaces, rfl, rfl⟩, rfl⟩

end ClassSandbox
