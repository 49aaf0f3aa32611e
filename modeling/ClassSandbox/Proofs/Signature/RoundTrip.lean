import ClassSandbox.Proofs.Descriptor.RoundTrip
import ClassSandbox.Signature.Parser

/-!
# Signatures are read as they are written

The parsers of generic types take a type off the front of a text exactly when it is well-formed and the text
begins with it written out (`ReferenceSignature.takes_read_iff`). A type is `WellFormed` if the names in it have
no characters that are marks of the grammar, and those of classes no empty segments.
-/

namespace ClassSandbox

variable {text rest : List Char}

/-! ## Well-formed types -/

/-- A name that the grammar can tell from what follows it. -/
def IsIdentifier (name : String) : Prop := name ≠ "" ∧ ∀ c ∈ name.toList, isSignatureMark c = false

instance (name : String) : Decidable (IsIdentifier name) :=
  decidable_of_iff (name ≠ "" ∧ (name.toList.all fun c => !isSignatureMark c) = true) (by simp [IsIdentifier])

/-- A name that may stand for a class. -/
def IsClassIdentifier (name : String) : Prop :=
  IsIdentifier name ∧ (BinaryName.segments name).any List.isEmpty = false

instance (name : String) : Decidable (IsClassIdentifier name) := inferInstanceAs (Decidable (_ ∧ _))

mutual

def TypeSignature.WellFormed : TypeSignature → Prop
  | .base _ => True
  | .reference type => type.WellFormed

def ReferenceSignature.WellFormed : ReferenceSignature → Prop
  | .object type => type.WellFormed
  | .variable name => IsIdentifier name
  | .array element => element.WellFormed

def ClassTypeSignature.WellFormed : ClassTypeSignature → Prop
  | .mk outer projections => outer.WellFormed ∧ WellFormedProjections projections

def WellFormedProjections : List SimpleClassSignature → Prop
  | [] => True
  | projection :: rest => projection.WellFormed ∧ WellFormedProjections rest

def SimpleClassSignature.WellFormed : SimpleClassSignature → Prop
  | .mk name arguments => IsClassIdentifier name ∧ WellFormedArguments arguments

def WellFormedArguments : List TypeArgument → Prop
  | [] => True
  | argument :: rest => argument.WellFormed ∧ WellFormedArguments rest

def TypeArgument.WellFormed : TypeArgument → Prop
  | .wildcard => True
  | .type _ type => type.WellFormed

end

/-! ## Names and marks -/

theorem takes_readIdentifier_iff {ends : List Char} (hends : ends.all isSignatureMark = true) {name : String} :
    Takes (readIdentifier ends text) name rest ↔
      IsIdentifier name ∧ text = name.toList ++ rest ∧ ∃ c ∈ ends, rest.head? = some c := by
  constructor
  · intro h
    dsimp only [readIdentifier] at h
    split at h
    · exact absurd h not_takes_error
    · rename_i c after hscan
      split at h
      · exact absurd h not_takes_error
      · rename_i hmem
        split at h
        · exact absurd h not_takes_error
        · rename_i hne
          obtain ⟨rfl, rfl⟩ := takes_ok_iff.1 h
          refine ⟨⟨by simpa using hne, fun c hc => ?_⟩, ?_, c, by simpa using hmem, rfl⟩
          · rw [String.toList_ofList] at hc
            simpa using List.all_eq_true.1 List.all_takeWhile c hc
          · rw [String.toList_ofList]
            exact (eq_append_of_dropWhile hscan).2
  · rintro ⟨hname, rfl, c, hmem, hhead⟩
    obtain ⟨after, rfl⟩ := List.head?_eq_some_iff.1 hhead
    have hinside : ∀ c ∈ name.toList, (!isSignatureMark c) = true := by simpa using hname.2
    have hstop : ∀ d ∈ (c :: after).head?, (!isSignatureMark d) = false := by
      simpa using List.all_eq_true.1 hends c hmem
    have htake := takeWhile_append_of_stop hinside hstop
    have hdrop := dropWhile_append_of_stop hinside hstop
    dsimp only [readIdentifier]
    split
    · rename_i hscan
      rw [hdrop] at hscan
      cases hscan
    · rename_i hscan
      rw [hdrop] at hscan
      cases hscan
      have hne : ¬ (name.toList ++ c :: after).takeWhile (fun c => !isSignatureMark c) = [] := by
        rw [htake]
        simpa using hname.1
      rw [if_neg (Decidable.not_not.2 hmem), dif_neg hne]
      simp [htake, takes_ok_iff]

theorem takes_readMark_iff {mark : Char} {u : Unit} : Takes (readMark mark text) u rest ↔ text = mark :: rest := by
  unfold readMark
  constructor
  · intro h
    split at h
    · exact absurd h not_takes_error
    · split at h
      · rename_i hmark
        obtain ⟨-, rfl⟩ := takes_ok_iff.1 h
        rw [hmark]
      · exact absurd h not_takes_error
  · rintro rfl
    simp [takes_ok_iff]

theorem takes_readMark (mark : Char) (rest : List Char) : Takes (readMark mark (mark :: rest)) () rest :=
  takes_readMark_iff.2 rfl

/-! ## What is written is read -/

theorem startsReference_baseType (type : BaseType) (rest : List Char) :
    ¬ startsReference (type.letter :: rest) = true := by
  cases type <;> simp [startsReference, BaseType.letter]

theorem ne_of_startsReference {c : Char} {rest : List Char} (h : startsReference (c :: rest) = true) :
    c ∉ ['*', '+', '-', '>'] := by
  rintro hmem
  simp only [List.mem_cons, List.not_mem_nil, or_false] at hmem
  rcases hmem with rfl | rfl | rfl | rfl <;> simp [startsReference] at h

/-- No other type argument starts like a wildcard or a bound. -/
theorem ReferenceSignature.exists_render_eq_cons (type : ReferenceSignature) (rest : List Char) :
    ∃ c after, type.render ++ rest = c :: after ∧ startsReference (c :: after) = true :=
  match type with
  | .object (.mk outer projections) => ⟨'L', _, by rw [render, ClassTypeSignature.render]; rfl, rfl⟩
  | .variable name => ⟨'T', _, rfl, rfl⟩
  | .array element => ⟨'[', _, rfl, rfl⟩

theorem TypeArgument.head?_render_ne (argument : TypeArgument) (rest : List Char) :
    (argument.render ++ rest).head? ≠ some '>' := by
  rcases argument with _ | ⟨_ | bound, type⟩
  · simp [render]
  · obtain ⟨c, after, htext, hstart⟩ := type.exists_render_eq_cons rest
    rw [render, htext]
    rintro ⟨⟩
    exact ne_of_startsReference hstart (by simp)
  · cases bound <;> simp [render, WildcardBound.letter]

mutual

theorem TypeSignature.takes_read (type : TypeSignature) (h : type.WellFormed) (rest : List Char) :
    Takes (TypeSignature.read (type.render ++ rest)) type rest :=
  match type, h with
  | .base type, _ => by
    rw [TypeSignature.render, List.singleton_append, TypeSignature.read, if_neg (startsReference_baseType type rest)]
    exact takes_map_iff.2 ⟨type, BaseType.takes_read_iff.2 rfl, rfl⟩
  | .reference type, h => by
    obtain ⟨c, after, htext, hstart⟩ := type.exists_render_eq_cons rest
    rw [TypeSignature.render, TypeSignature.read, htext, if_pos hstart, ← htext]
    exact takes_map_iff.2 ⟨type, type.takes_read h rest, rfl⟩

theorem ReferenceSignature.takes_read (type : ReferenceSignature) (h : type.WellFormed) (rest : List Char) :
    Takes (ReferenceSignature.read (type.render ++ rest)) type rest :=
  match type, h with
  | .object (.mk outer projections), h => by
    have htype := (ClassTypeSignature.mk outer projections).takes_read h rest
    rw [ReferenceSignature.render]
    rw [ClassTypeSignature.render, List.cons_append, List.cons_append, List.cons_append] at htype ⊢
    rw [ReferenceSignature.read]
    exact takes_map_iff.2 ⟨_, htype, rfl⟩
  | .variable name, h => by
    have htext : (ReferenceSignature.variable name).render ++ rest = 'T' :: (name.toList ++ ';' :: rest) := by
      simp [ReferenceSignature.render]
    have hidentifier : Takes (readIdentifier [';'] (name.toList ++ ';' :: rest)) name (';' :: rest) :=
      (takes_readIdentifier_iff (by decide)).2 ⟨h, rfl, ';', by simp, rfl⟩
    obtain ⟨shorter, hname⟩ := hidentifier
    rw [htext, ReferenceSignature.read, hname]
    exact (takes_within_iff _).2 ⟨(), takes_readMark_iff.2 rfl, rfl⟩
  | .array element, h => by
    rw [ReferenceSignature.render, List.cons_append, ReferenceSignature.read]
    exact (takes_within_iff _).2 ⟨element, element.takes_read h rest, rfl⟩

theorem ClassTypeSignature.takes_read (type : ClassTypeSignature) (h : type.WellFormed) (rest : List Char) :
    Takes (ClassTypeSignature.read (type.render ++ rest)) type rest :=
  match type, h with
  | .mk outer projections, ⟨houter, hprojections⟩ => by
    have htext : (ClassTypeSignature.mk outer projections).render ++ rest =
        'L' :: (outer.render ++ (renderProjections projections ++ ';' :: rest)) := by
      simp [ClassTypeSignature.render]
    have hstop : ∃ c ∈ ['.', ';'], (renderProjections projections ++ ';' :: rest).head? = some c := by
      cases projections <;> simp [renderProjections]
    have hmark : Takes (readMark 'L' _) () _ := takes_readMark_iff.2 htext
    obtain ⟨shorter, hmark⟩ := hmark
    obtain ⟨shorter', hread⟩ := outer.takes_read houter hstop
    have part := Nat.lt_trans shorter' shorter
    obtain ⟨_, hmore⟩ := takes_readProjections projections hprojections rfl part []
    rw [ClassTypeSignature.read, hmark]
    simp only [hread, hmore]
    exact (takes_within_iff _).2 ⟨(), takes_readMark_iff.2 rfl, rfl⟩

theorem takes_readProjections (projections : List SimpleClassSignature) (h : WellFormedProjections projections)
    {whole text rest : List Char} (htext : text = renderProjections projections ++ ';' :: rest)
    (part : text.length < whole.length) (seen : List SimpleClassSignature) :
    Takes (readProjections text part seen) (seen.reverse ++ projections) (';' :: rest) :=
  match projections, h with
  | [], _ => by
    obtain rfl : text = ';' :: rest := htext
    rw [readProjections]
    · exact takes_ok_iff.2 ⟨(List.append_nil _).symm, rfl⟩
    · decide
  | projection :: more, ⟨hfirst, hmore⟩ => by
    obtain rfl : text = '.' :: (projection.render ++ (renderProjections more ++ ';' :: rest)) := by
      rw [htext, renderProjections]
      simp
    have hstop : ∃ c ∈ ['.', ';'], (renderProjections more ++ ';' :: rest).head? = some c := by
      cases more <;> simp [renderProjections]
    obtain ⟨_, hread⟩ := projection.takes_read hfirst hstop
    have hreverse : seen.reverse ++ projection :: more = (projection :: seen).reverse ++ more := by simp
    rw [readProjections, hread, hreverse]
    exact takes_readProjections more hmore rfl _ (projection :: seen)

theorem SimpleClassSignature.takes_read (type : SimpleClassSignature) (h : type.WellFormed) {rest : List Char}
    (hstop : ∃ c ∈ ['.', ';'], rest.head? = some c) :
    Takes (SimpleClassSignature.read (type.render ++ rest)) type rest :=
  match type, h with
  | .mk name [], ⟨hname, _⟩ => by
    obtain ⟨c, hmem, hhead⟩ := hstop
    have hidentifier : Takes (readIdentifier ['<', '.', ';'] (name.toList ++ rest)) name rest :=
      (takes_readIdentifier_iff (by decide)).2 ⟨hname.1, rfl, c, List.mem_cons_of_mem _ hmem, hhead⟩
    obtain ⟨_, hread⟩ := hidentifier
    obtain ⟨after, rfl⟩ := List.head?_eq_some_iff.1 hhead
    rw [SimpleClassSignature.render, SimpleClassSignature.read, hread]
    simp only [List.mem_cons, List.not_mem_nil, or_false] at hmem
    rcases hmem with rfl | rfl <;>
    · simp only [hname.2, Bool.false_eq_true, if_false]
      exact takes_ok_iff.2 ⟨rfl, rfl⟩
  | .mk name (argument :: more), ⟨hname, harguments⟩ => by
    have htext : (SimpleClassSignature.mk name (argument :: more)).render ++ rest =
        name.toList ++ '<' :: (renderArguments (argument :: more) ++ '>' :: rest) := by
      simp [SimpleClassSignature.render, renderArguments]
    have hidentifier : Takes (readIdentifier ['<', '.', ';'] _) name _ :=
      (takes_readIdentifier_iff (by decide)).2 ⟨hname.1, htext, '<', by simp, rfl⟩
    obtain ⟨shorter, hread⟩ := hidentifier
    obtain ⟨_, hmore⟩ := takes_readArguments (argument :: more) harguments rfl (Nat.lt_of_succ_lt shorter) []
    rw [SimpleClassSignature.read, hread]
    simp only [hname.2, Bool.false_eq_true, if_false, hmore]
    exact takes_ok_iff.2 ⟨rfl, rfl⟩

theorem takes_readArguments (arguments : List TypeArgument) (h : WellFormedArguments arguments)
    {whole text rest : List Char} (htext : text = renderArguments arguments ++ '>' :: rest)
    (part : text.length < whole.length) (seen : List TypeArgument) :
    Takes (readArguments text part seen) (seen.reverse ++ arguments) rest :=
  match arguments, h with
  | [], _ => by
    obtain rfl : text = '>' :: rest := htext
    rw [readArguments, if_pos (show ('>' :: rest).head? = some '>' from rfl)]
    exact takes_ok_iff.2 ⟨(List.append_nil _).symm, rfl⟩
  | argument :: more, ⟨hfirst, hmore⟩ => by
    obtain rfl : text = argument.render ++ (renderArguments more ++ '>' :: rest) := by
      rw [htext, renderArguments, List.append_assoc]
    have hopen := argument.head?_render_ne (renderArguments more ++ '>' :: rest)
    obtain ⟨_, hread⟩ := argument.takes_read hfirst (renderArguments more ++ '>' :: rest)
    have hreverse : seen.reverse ++ argument :: more = (argument :: seen).reverse ++ more := by simp
    rw [readArguments, if_neg hopen, hread, hreverse]
    exact takes_readArguments more hmore rfl _ (argument :: seen)

theorem TypeArgument.takes_read (argument : TypeArgument) (h : argument.WellFormed) (rest : List Char) :
    Takes (TypeArgument.read (argument.render ++ rest)) argument rest :=
  match argument, h with
  | .wildcard, _ => by
    rw [TypeArgument.render, List.singleton_append, TypeArgument.read]
    exact takes_ok_iff.2 ⟨rfl, rfl⟩
  | .type none type, h => by
    obtain ⟨c, after, htext, hstart⟩ := type.exists_render_eq_cons rest
    have hother := ne_of_startsReference hstart
    have htype := type.takes_read h rest
    rw [TypeArgument.render]
    rw [htext] at htype ⊢
    rw [TypeArgument.read]
    · exact takes_map_iff.2 ⟨type, htype, rfl⟩
    all_goals
      rintro _ ⟨⟩
      exact hother (by simp)
  | .type (some .upper) type, h => by
    rw [TypeArgument.render, WildcardBound.letter, List.cons_append, TypeArgument.read]
    exact (takes_within_iff _).2 ⟨type, type.takes_read h rest, rfl⟩
  | .type (some .lower) type, h => by
    rw [TypeArgument.render, WildcardBound.letter, List.cons_append, TypeArgument.read]
    exact (takes_within_iff _).2 ⟨type, type.takes_read h rest, rfl⟩

end

/-! ## What is read was written -/

mutual

theorem TypeSignature.of_takes_read {text rest : List Char} {type : TypeSignature}
    (h : Takes (TypeSignature.read text) type rest) : type.WellFormed ∧ text = type.render ++ rest := by
  rw [TypeSignature.read] at h
  split at h
  · obtain ⟨type, htype, rfl⟩ := takes_map_iff.1 h
    exact ReferenceSignature.of_takes_read htype
  · obtain ⟨type, htype, rfl⟩ := takes_map_iff.1 h
    exact ⟨trivial, BaseType.takes_read_iff.1 htype⟩
termination_by (text.length, 2)

theorem ReferenceSignature.of_takes_read {text rest : List Char} {type : ReferenceSignature}
    (h : Takes (ReferenceSignature.read text) type rest) : type.WellFormed ∧ text = type.render ++ rest := by
  rw [ReferenceSignature.read.eq_def] at h
  split at h
  · exact absurd h not_takes_error
  · obtain ⟨type, htype, rfl⟩ := takes_map_iff.1 h
    exact ClassTypeSignature.of_takes_read htype
  · split at h
    · exact absurd h not_takes_error
    · rename_i hidentifier
      obtain ⟨_, hmark, rfl⟩ := (takes_within_iff _).1 h
      obtain ⟨hname, htext, -⟩ := (takes_readIdentifier_iff (by decide)).1 ⟨_, hidentifier⟩
      refine ⟨hname, ?_⟩
      rw [htext, takes_readMark_iff.1 hmark, ReferenceSignature.render]
      simp
  · obtain ⟨element, helement, rfl⟩ := (takes_within_iff _).1 h
    obtain ⟨hwell, htext⟩ := TypeSignature.of_takes_read helement
    exact ⟨hwell, congrArg ('[' :: ·) htext⟩
  · exact absurd h not_takes_error
termination_by (text.length, 1)
decreasing_by
  all_goals subst text
  · exact Prod.Lex.right _ (by decide)
  · exact Prod.Lex.left _ _ (length_lt_cons _ _)

theorem ClassTypeSignature.of_takes_read {text rest : List Char} {type : ClassTypeSignature}
    (h : Takes (ClassTypeSignature.read text) type rest) : type.WellFormed ∧ text = type.render ++ rest := by
  rw [ClassTypeSignature.read.eq_def] at h
  split at h
  · exact absurd h not_takes_error
  · rename_i hopen
    split at h
    · exact absurd h not_takes_error
    · rename_i houter
      split at h
      · exact absurd h not_takes_error
      · rename_i hprojections
        obtain ⟨_, hclose, rfl⟩ := (takes_within_iff _).1 h
        obtain ⟨hwell, htext⟩ := SimpleClassSignature.of_takes_read ⟨_, houter⟩
        obtain ⟨more, rfl, hmore, htext'⟩ := of_takes_readProjections ⟨_, hprojections⟩
        refine ⟨⟨hwell, hmore⟩, ?_⟩
        rw [takes_readMark_iff.1 ⟨_, hopen⟩, htext, htext', takes_readMark_iff.1 hclose, ClassTypeSignature.render]
        simp
termination_by (text.length, 0)

theorem of_takes_readProjections {whole text rest : List Char} {part : text.length < whole.length}
    {seen projections : List SimpleClassSignature} (h : Takes (readProjections text part seen) projections rest) :
    ∃ more, projections = seen.reverse ++ more ∧ WellFormedProjections more ∧
      text = renderProjections more ++ rest := by
  rw [readProjections.eq_def] at h
  split at h
  · obtain ⟨rfl, rfl⟩ := takes_ok_iff.1 h
    exact ⟨[], (List.append_nil _).symm, trivial, rfl⟩
  · split at h
    · exact absurd h not_takes_error
    · rename_i projection after shorter hread
      obtain ⟨hwell, htext⟩ := SimpleClassSignature.of_takes_read ⟨_, hread⟩
      obtain ⟨more, rfl, hmore, rfl⟩ := of_takes_readProjections h
      refine ⟨projection :: more, by simp, ⟨hwell, hmore⟩, ?_⟩
      rw [htext, renderProjections]
      simp
  · obtain ⟨rfl, rfl⟩ := takes_ok_iff.1 h
    exact ⟨[], (List.append_nil _).symm, trivial, rfl⟩
termination_by (text.length, 0)

theorem SimpleClassSignature.of_takes_read {text rest : List Char} {type : SimpleClassSignature}
    (h : Takes (SimpleClassSignature.read text) type rest) : type.WellFormed ∧ text = type.render ++ rest := by
  rw [SimpleClassSignature.read.eq_def] at h
  split at h
  · exact absurd h not_takes_error
  · rename_i name after shorter hidentifier
    obtain ⟨hname, htext, -⟩ := (takes_readIdentifier_iff (by decide)).1 ⟨_, hidentifier⟩
    split at h
    · exact absurd h not_takes_error
    · rename_i hsegments
      have hclass : IsClassIdentifier name := ⟨hname, Bool.eq_false_iff.2 hsegments⟩
      split at h
      · obtain ⟨rfl, rfl⟩ := takes_ok_iff.1 h
        exact ⟨⟨hclass, trivial⟩, htext⟩
      · dsimp only at h
        split at h
        · exact absurd h not_takes_error
        · exact absurd h not_takes_error
        · rename_i hne harguments
          obtain ⟨rfl, rfl⟩ := takes_ok_iff.1 h
          obtain ⟨_, rfl, hmore, htext'⟩ := of_takes_readArguments ⟨_, harguments⟩
          obtain ⟨argument, more, rfl⟩ := List.exists_cons_of_ne_nil hne
          refine ⟨⟨hclass, hmore⟩, ?_⟩
          rw [htext, htext']
          simp [SimpleClassSignature.render, renderArguments]
      · obtain ⟨rfl, rfl⟩ := takes_ok_iff.1 h
        exact ⟨⟨hclass, trivial⟩, htext⟩
termination_by (text.length, 0)

theorem of_takes_readArguments {whole text rest : List Char} {part : text.length < whole.length}
    {seen arguments : List TypeArgument} (h : Takes (readArguments text part seen) arguments rest) :
    ∃ more, arguments = seen.reverse ++ more ∧ WellFormedArguments more ∧
      text = renderArguments more ++ '>' :: rest := by
  rw [readArguments.eq_def] at h
  split at h
  · rename_i hclose
    obtain ⟨rfl, rfl⟩ := takes_ok_iff.1 h
    obtain ⟨after, rfl⟩ := List.head?_eq_some_iff.1 hclose
    exact ⟨[], (List.append_nil _).symm, trivial, rfl⟩
  · split at h
    · exact absurd h not_takes_error
    · rename_i argument after shorter hread
      obtain ⟨hwell, htext⟩ := TypeArgument.of_takes_read ⟨_, hread⟩
      obtain ⟨more, rfl, hmore, rfl⟩ := of_takes_readArguments h
      refine ⟨argument :: more, by simp, ⟨hwell, hmore⟩, ?_⟩
      rw [htext, renderArguments, List.append_assoc]
termination_by (text.length, 3)

theorem TypeArgument.of_takes_read {text rest : List Char} {argument : TypeArgument}
    (h : Takes (TypeArgument.read text) argument rest) : argument.WellFormed ∧ text = argument.render ++ rest := by
  rw [TypeArgument.read.eq_def] at h
  split at h
  · obtain ⟨rfl, rfl⟩ := takes_ok_iff.1 h
    exact ⟨trivial, rfl⟩
  · obtain ⟨type, htype, rfl⟩ := (takes_within_iff _).1 h
    obtain ⟨hwell, htext⟩ := ReferenceSignature.of_takes_read htype
    exact ⟨hwell, congrArg ('+' :: ·) htext⟩
  · obtain ⟨type, htype, rfl⟩ := (takes_within_iff _).1 h
    obtain ⟨hwell, htext⟩ := ReferenceSignature.of_takes_read htype
    exact ⟨hwell, congrArg ('-' :: ·) htext⟩
  · obtain ⟨type, htype, rfl⟩ := takes_map_iff.1 h
    exact ReferenceSignature.of_takes_read htype
termination_by (text.length, 2)

end

theorem TypeSignature.takes_read_iff {type : TypeSignature} :
    Takes (TypeSignature.read text) type rest ↔ type.WellFormed ∧ text = type.render ++ rest :=
  ⟨TypeSignature.of_takes_read, fun ⟨hwell, htext⟩ => htext ▸ type.takes_read hwell rest⟩

theorem ReferenceSignature.takes_read_iff {type : ReferenceSignature} :
    Takes (ReferenceSignature.read text) type rest ↔ type.WellFormed ∧ text = type.render ++ rest :=
  ⟨ReferenceSignature.of_takes_read, fun ⟨hwell, htext⟩ => htext ▸ type.takes_read hwell rest⟩

theorem ClassTypeSignature.takes_read_iff {type : ClassTypeSignature} :
    Takes (ClassTypeSignature.read text) type rest ↔ type.WellFormed ∧ text = type.render ++ rest :=
  ⟨ClassTypeSignature.of_takes_read, fun ⟨hwell, htext⟩ => htext ▸ type.takes_read hwell rest⟩

/-- A signature of a field is read to its end only if it was written from the type. -/
theorem ReferenceSignature.parseAll_read_iff {signature : String} {type : ReferenceSignature} :
    parseAll ReferenceSignature.read signature = .ok type ↔
      type.WellFormed ∧ signature = String.ofList type.render := by
  rw [parseAll_eq_ok_iff, takes_read_iff, List.append_nil, ← String.toList_inj, String.toList_ofList]

end ClassSandbox
