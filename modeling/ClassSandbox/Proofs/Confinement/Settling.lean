import ClassSandbox.Proofs.Confinement.Rest
import ClassSandbox.Proofs.Confinement.Signatures

/-!
# What confinement leaves is at rest

In strict mode, what the parts of a class mention is at rest once they are confined. Fields and methods keep this
as long as the constants of the pool keep what they are (`MemberSettled`), and so do the classes that are settled
on the way (`ClassesAtRest`). The sweep then brings all the other constants to rest (`atRest_of_sweep`), so a
confined class is at rest as a whole (`atRest_of_confine`).
-/

namespace ClassSandbox

open ConstantPool

variable {r : Resolver} {pool pool' : ConstantPool}

/-! ## Reading in a later pool -/

namespace Confinement

theorem firstSignature_later {items : List Attribute} {signature : Option String}
    (hkeeps : pool.KeepsConstants pool') (h : firstSignature pool items = .ok signature) :
    firstSignature pool' items = .ok signature := by
  induction items with
  | nil => exact h
  | cons item items ih =>
    obtain ⟨found, hdecode, h⟩ := except_bind_eq_ok_iff.1 h
    refine except_bind_eq_ok_iff.2 ⟨found, Attribute.decodeAs_mono hkeeps hdecode, ?_⟩
    cases found with
    | none => exact ih h
    | some index =>
      obtain ⟨text, htext, h⟩ := except_bind_eq_ok_iff.1 h
      exact except_bind_eq_ok_iff.2 ⟨text, hkeeps.textAt htext, h⟩

/-- The first signature, behind attributes that are none. -/
theorem firstSignature_append {front back : List Attribute} {item : Attribute} {signature : String}
    (hfront : ∀ other ∈ front, other.decodeAs signatureKind pool = .ok none)
    (hholds : item.HoldsSignature pool signature) :
    firstSignature pool (front ++ item :: back) = .ok (some signature) := by
  induction front with
  | nil =>
    obtain ⟨index, hdecode, htext⟩ := hholds
    exact except_bind_eq_ok_iff.2 ⟨some index, hdecode, except_bind_eq_ok_iff.2 ⟨signature, htext, rfl⟩⟩
  | cons other front ih =>
    rw [List.forall_mem_cons] at hfront
    exact except_bind_eq_ok_iff.2 ⟨none, hfront.1, ih hfront.2⟩

/-- Other attributes of the same kinds declare the same exceptions. -/
theorem declaredExceptions_of_forall₂ {items items' : List Attribute} {exceptions : List ConstantIndex}
    (hsame : List.Forall₂ (fun item item' : Attribute => ∀ found,
      item.decodeAs exceptionsKind pool = .ok found → item'.decodeAs exceptionsKind pool' = .ok found) items items')
    (h : declaredExceptions pool items = .ok exceptions) : declaredExceptions pool' items' = .ok exceptions := by
  obtain ⟨found, hfound, h⟩ := except_bind_eq_ok_iff.1 h
  exact except_bind_eq_ok_iff.2 ⟨found, mapM_of_forall₂ hsame hfound, h⟩

theorem declaredExceptions_later {items : List Attribute} {exceptions : List ConstantIndex}
    (hkeeps : pool.KeepsConstants pool') (h : declaredExceptions pool items = .ok exceptions) :
    declaredExceptions pool' items = .ok exceptions :=
  declaredExceptions_of_forall₂
    (List.forall₂_same.2 fun _ _ _ hdecode => Attribute.decodeAs_mono hkeeps hdecode) h

/-- A signature declares no exceptions. -/
theorem decodeAs_exceptionsKind_of_signature {item : Attribute}
    (hname : pool.textAt item.name = .ok signatureKind.name) : item.decodeAs exceptionsKind pool = .ok none := by
  rw [Attribute.decodeAs, hname]
  rfl

/-- A signature in place of another one changes nothing about the exceptions. -/
theorem declaredExceptions_replaced {front back : List Attribute} {item item' : Attribute}
    {exceptions : List ConstantIndex} (hkeeps : pool.KeepsConstants pool')
    (hitem : pool.textAt item.name = .ok signatureKind.name)
    (hitem' : pool'.textAt item'.name = .ok signatureKind.name)
    (h : declaredExceptions pool (front ++ item :: back) = .ok exceptions) :
    declaredExceptions pool' (front ++ item' :: back) = .ok exceptions := by
  have hothers : ∀ others : List Attribute, List.Forall₂ (fun other other' : Attribute => ∀ found,
      other.decodeAs exceptionsKind pool = .ok found → other'.decodeAs exceptionsKind pool' = .ok found)
      others others := fun others =>
    List.forall₂_same.2 fun _ _ _ hdecode => Attribute.decodeAs_mono hkeeps hdecode
  refine declaredExceptions_of_forall₂
    (List.rel_append (hothers front) (.cons (fun found hdecode => ?_) (hothers back))) h
  rw [decodeAs_exceptionsKind_of_signature hitem] at hdecode
  exact (decodeAs_exceptionsKind_of_signature hitem').trans hdecode

/-- If no signature is dropped, the new one is found in place of the old one, and the exceptions are the same. -/
theorem reads_of_setSignature {editor written : PoolEditor} (h : editor.pool.Regular)
    (hkeeps : pool.KeepsConstants editor.pool) {items items' : List Attribute} {old new : Option String}
    (hread : firstSignature pool items = .ok old) (hnone : new = none ↔ old = none)
    (hmarked : ∀ signature, new = some signature → Marked signature)
    (hrun : Gives (setSignature items old new) editor items' written) :
    firstSignature written.pool items' = .ok new ∧ ∀ exceptions, declaredExceptions pool items = .ok exceptions →
      declaredExceptions written.pool items' = .ok exceptions := by
  have hproceeds := (gives_setSignature_of_regular h hmarked hrun).1
  have hlater := hkeeps.trans (hproceeds.keepsConstants h)
  by_cases hsame : old = new
  · subst hsame
    rw [setSignature, if_pos rfl] at hrun
    obtain ⟨rfl, rfl⟩ := gives_pure hrun
    exact ⟨firstSignature_later hlater hread, fun _ => declaredExceptions_later hlater⟩
  · cases old with
    | none => exact absurd (hnone.2 rfl).symm hsame
    | some signature =>
      obtain ⟨front, first, back, rfl, hholds, hfront⟩ := exists_of_firstSignature hread
      have hfirst := firstSignature_of_holds hholds hfront
      rcases exists_of_setSignature h hmarked hsame hrun with
        ⟨habsent, -⟩ | ⟨front', first', back', hitems, hfirst', hnew⟩
      · exact absurd (hfirst.mono hkeeps).here (habsent first (by simp))
      · -- The attribute whose signature was read is the one that is replaced.
        obtain ⟨rfl, rfl, rfl⟩ := (hfirst.mono hkeeps).unique hfirst' hitems
        rcases hnew with ⟨rfl, -⟩ | ⟨signature', item, rfl, rfl, hwritten⟩
        · cases hnone.1 rfl
        · have hfront' : ∀ other ∈ front, other.decodeAs signatureKind written.pool = .ok none := fun other hmem =>
            Attribute.decodeAs_mono hlater (hfront other hmem)
          exact ⟨firstSignature_append hfront' hwritten, fun _ =>
            declaredExceptions_replaced hlater hfirst.here (firstSignature_of_holds hwritten hfront').here⟩

/-! ## Settled classes -/

variable {editor later last : PoolEditor} {index : ConstantIndex}

/-- The names of the classes that are settled are at rest. -/
def ClassesAtRest (r : Resolver) (editor : PoolEditor) : Prop :=
  ∀ index ∈ editor.settled, ∃ name, editor.pool.classNameAt index = .ok name ∧ r.Rests (r.resolveClass name) name

theorem classesAtRest_of_extends (h : ClassesAtRest r editor) (hextends : Extends editor later) :
    ClassesAtRest r later := by
  intro index hmem
  obtain ⟨name, hname, hrests⟩ := h index (hextends.settled ▸ hmem)
  obtain ⟨text, hclass, htext⟩ := classNameAt_eq_ok_iff.1 hname
  exact ⟨name, classNameAt_eq_ok_iff.2 ⟨text, hextends.grows _ _ hclass, hextends.grows.keepsTexts _ _ htext⟩, hrests⟩

/-- The classes that are settled on the way are at rest, too. -/
structure Settles (r : Resolver) (editor later : PoolEditor) : Prop where
  proceeds : Proceeds editor later
  keeps : editor.pool.KeepsConstants later.pool
  atRest : ClassesAtRest r later

theorem Settles.trans (h : Settles r editor later) (h' : Settles r later last) : Settles r editor last :=
  ⟨h.proceeds.trans h'.proceeds, h.keeps.trans h'.keeps, h'.atRest⟩

theorem progress_settles (r : Resolver) :
    Progress (fun editor => editor.pool.Regular ∧ ClassesAtRest r editor) (Settles r) where
  refl hready := ⟨.refl _, .refl _, hready.2⟩
  trans := .trans
  ready hready h := ⟨h.proceeds.regular hready.1, h.atRest⟩

section

variable (h : editor.pool.Regular) (hrests : ClassesAtRest r editor)

include h hrests

theorem settles_of_extends (hproceeds : Proceeds editor later) (hextends : Extends editor later) :
    Settles r editor later :=
  ⟨hproceeds, hproceeds.keepsConstants h, classesAtRest_of_extends hrests hextends⟩

theorem settles_of_setClass {name : String} (hoffered : Offered editor index name)
    (hname : r.Rests (r.resolveClass name) name) {u : Unit} (hrun : Gives (setClass index name) editor u later) :
    Settles r editor later := by
  have hproceeds := proceeds_of_setClass h hoffered hrun
  refine ⟨hproceeds, hproceeds.keepsConstants h, ?_⟩
  rcases gives_setClass h.sound hrun with ⟨-, rfl⟩ | ⟨-, hsettled, hrepoints, -, found, hat, hfound⟩
  · exact hrests
  · intro other hmem
    by_cases heq : index = other
    · subst heq
      exact ⟨name, classNameAt_eq_ok_iff.2 ⟨found, hat, hfound⟩, hname⟩
    · rw [hsettled, Std.HashSet.mem_insert, beq_iff_eq] at hmem
      obtain ⟨old, hold, hrest⟩ := hrests other (hmem.resolve_left heq)
      obtain ⟨text, hclass, htext⟩ := classNameAt_eq_ok_iff.1 hold
      have hclass' := hrepoints.others _ _ (Ne.symm heq) hclass
      exact ⟨old, classNameAt_eq_ok_iff.2 ⟨text, hclass', hrepoints.texts _ _ htext⟩, hrest⟩

theorem settles_of_setClasses {assignments : List (ConstantIndex × String)}
    (hoffered : ∀ entry ∈ assignments, Offered editor entry.1 entry.2)
    (hnames : ∀ entry ∈ assignments, r.Rests (r.resolveClass entry.2) entry.2) {u : Unit}
    (hrun : Gives (assignments.forM fun (index, name) => setClass index name) editor u later) :
    Settles r editor later := by
  have hprogress : Progress (fun editor => (editor.pool.Regular ∧ ClassesAtRest r editor) ∧
      ∀ entry ∈ assignments, Offered editor entry.1 entry.2) (Settles r) :=
    (progress_settles r).and fun hready hoffered hsettles entry hmem =>
      (hoffered entry hmem).proceeds hready.1 hsettles.proceeds
  exact hprogress.forM (fun entry hmem _ _ _ hready hstep =>
    settles_of_setClass hready.1.1 hready.1.2 (hready.2 entry hmem) (hnames entry hmem) hstep)
    ⟨⟨h, hrests⟩, hoffered⟩ hrun

end

/-! ## Header, fields and methods -/

variable {file : ClassFile}

theorem settles_of_setSignature (h : editor.pool.Regular) (hrests : ClassesAtRest r editor)
    {items items' : List Attribute} {old new : Option String}
    (hmarked : ∀ signature, new = some signature → Marked signature)
    (hrun : Gives (setSignature items old new) editor items' later) : Settles r editor later :=
  settles_of_extends h hrests (gives_setSignature_of_regular h hmarked hrun).1 (gives_setSignature h.sound hrun)

/-- What is read off a member is at rest. -/
structure MemberSettled (r : Resolver) (onDescriptor : Resolver → String → Resolution String)
    (onSignature : Resolver → Option String → Resolution (Option String)) (pool : ConstantPool) {kind : Declared}
    (member : Member kind) : Prop where
  name : ∃ name, pool.textAt member.name = .ok name
  descriptor : ∃ descriptor, pool.textAt member.descriptor = .ok descriptor ∧
    r.Rests (onDescriptor r descriptor) descriptor
  signature : ∃ signature, firstSignature pool member.attributes = .ok signature ∧
    r.Rests (onSignature r signature) signature

structure FieldSettled (r : Resolver) (pool : ConstantPool) (field : Field) : Prop
    extends MemberSettled r Resolver.resolveDescriptor Resolver.resolveFieldSignature pool field where
  flags : r.keptFieldFlags field.flags = field.flags

structure MethodSettled (r : Resolver) (pool : ConstantPool) (method : Method) : Prop
    extends MemberSettled r Resolver.resolveMethodDescriptor Resolver.resolveSignature pool method where
  flags : method.flags.without synchronizedFlag = method.flags
  exceptions : ∃ exceptions, declaredExceptions pool method.attributes = .ok exceptions ∧
    ∀ index ∈ exceptions, ∃ text, pool.constantAt index = .ok (.classRef text)

section

variable {onDescriptor : Resolver → String → Resolution String}
  {onSignature : Resolver → Option String → Resolution (Option String)} {kind : Declared}

theorem MemberSettled.mono {member : Member kind} (h : MemberSettled r onDescriptor onSignature pool member)
    (hkeeps : pool.KeepsConstants pool') : MemberSettled r onDescriptor onSignature pool' member where
  name := h.name.imp fun _ hname => hkeeps.textAt hname
  descriptor := h.descriptor.imp fun _ hdescriptor => hdescriptor.imp_left hkeeps.textAt
  signature := h.signature.imp fun _ hsignature => hsignature.imp_left (firstSignature_later hkeeps)

theorem FieldSettled.mono {field : Field} (h : FieldSettled r pool field)
    (hkeeps : pool.KeepsConstants pool') : FieldSettled r pool' field :=
  ⟨h.toMemberSettled.mono hkeeps, h.flags⟩

theorem exists_classRef_later {text : ConstantIndex} (hkeeps : pool.KeepsConstants pool')
    (h : pool.constantAt index = .ok (.classRef text)) :
    ∃ text', pool'.constantAt index = .ok (.classRef text') := by
  obtain ⟨constant, hat, rfl | hrepointed⟩ := hkeeps.kept index _ h
  · exact ⟨text, hat⟩
  · cases hrepointed
    exact ⟨_, hat⟩

theorem MethodSettled.mono {method : Method} (h : MethodSettled r pool method)
    (hkeeps : pool.KeepsConstants pool') : MethodSettled r pool' method := by
  refine ⟨h.toMemberSettled.mono hkeeps, h.flags, ?_⟩
  obtain ⟨exceptions, hexceptions, hclasses⟩ := h.exceptions
  refine ⟨exceptions, declaredExceptions_later hkeeps hexceptions, fun index hmem => ?_⟩
  obtain ⟨text, hclass⟩ := hclasses index hmem
  exact exists_classRef_later hkeeps hclass

variable (onDescriptor onSignature) in
/-- The descriptor and the signature of a member are put in place, which leaves the exceptions alone. -/
theorem settles_of_member {before after : Member kind} {name old new : String} {signature signature' : Option String}
    {middle : PoolEditor} (h : editor.pool.Regular) (hrests : ClassesAtRest r editor)
    (hname : editor.pool.textAt before.name = .ok name) (hsame : after.name = before.name)
    (hold : editor.pool.textAt before.descriptor = .ok old) (hnew : new = old ∨ Marked new)
    (hdescriptor : r.Rests (onDescriptor r new) new)
    (htext : Gives (newText before.descriptor old new) editor after.descriptor middle)
    (hread : firstSignature editor.pool before.attributes = .ok signature)
    (hmarked : ∀ text, signature' = some text → Marked text)
    (hsignature : r.Rests (onSignature r signature') signature' ∧ (signature' = none ↔ signature = none))
    (hset : Gives (setSignature before.attributes signature signature') middle after.attributes later) :
    Settles r editor later ∧ MemberSettled r onDescriptor onSignature later.pool after ∧
      ∀ exceptions, declaredExceptions editor.pool before.attributes = .ok exceptions →
        declaredExceptions later.pool after.attributes = .ok exceptions := by
  obtain ⟨hextends, hfound⟩ := gives_newText h.sound hold htext
  have hfirst := settles_of_extends h hrests (proceeds_of_newText h hnew htext) hextends
  have hregular := hfirst.proceeds.regular h
  have hlast := settles_of_setSignature hregular hfirst.atRest hmarked hset
  obtain ⟨hsignature', hexceptions⟩ := reads_of_setSignature hregular hfirst.keeps hread hsignature.2 hmarked hset
  have hall := hfirst.trans hlast
  exact ⟨hall, ⟨⟨name, hsame ▸ hall.keeps.textAt hname⟩, ⟨new, hlast.keeps.textAt hfound, hdescriptor⟩,
    ⟨signature', hsignature', hsignature.1⟩⟩, hexceptions⟩

end

section Strict

variable (hmode : r.settings.mode = .strict) (hplain : r.settings.Plain)

include hmode hplain

/-- The header of a class leaves settled classes behind, and a signature that is at rest. -/
theorem settles_of_confineHeader (h : file.pool.Regular) {attributes : List Attribute}
    (hrun : Gives (r.confineHeader file) ⟨file.pool, ∅⟩ attributes later) :
    Settles r ⟨file.pool, ∅⟩ later ∧ ∃ signature, firstSignature later.pool attributes = .ok signature ∧
      r.Rests (r.resolveSignature signature) signature := by
  obtain ⟨header, resolved, middle, hheader, hresolved, hclasses, hset⟩ := Resolver.exists_of_confineHeader hrun
  obtain ⟨-, -, -, hread⟩ := ClassFile.header_eq_ok hheader
  obtain ⟨-, -, -, hsignature⟩ := Resolver.mayGive_resolveClassHeader hresolved
  obtain ⟨hrests, hnone⟩ := Resolver.rests_resolveSignature hmode hplain hsignature
  have hmarked : ∀ signature, resolved.signature = some signature → Marked signature :=
    fun _ heq => Resolver.marked_of_resolveSignature (heq ▸ hsignature)
  have hassigned := Resolver.exists_of_mem_assignments hheader hresolved
  have hfirst : Settles r ⟨file.pool, ∅⟩ middle := by
    refine settles_of_setClasses h (fun _ hmem => absurd hmem Std.HashSet.not_mem_empty) (fun entry hmem => ?_)
      (fun entry hmem => ?_) hclasses
    · obtain ⟨old, hold, hnew⟩ := hassigned entry hmem
      exact offered_of_read hold hnew
    · obtain ⟨old, -, hnew⟩ := hassigned entry hmem
      exact Resolver.rests_resolveClass_of_mayGive hmode hplain hnew
  have hregular := hfirst.proceeds.regular h
  obtain ⟨hfound, -⟩ := reads_of_setSignature hregular hfirst.keeps hread hnone hmarked hset
  exact ⟨hfirst.trans (settles_of_setSignature hregular hfirst.atRest hmarked hset), resolved.signature, hfound,
    hrests⟩

theorem settles_of_confineField (h : editor.pool.Regular) (hrests : ClassesAtRest r editor) {field confined : Field}
    (hrun : Gives (r.confineField field) editor confined later) :
    Settles r editor later ∧ FieldSettled r later.pool confined := by
  obtain ⟨header, resolved, middle, hheader, hresolved, htext, hset, hname, hflags⟩ :=
    Resolver.exists_of_confineField hrun
  obtain ⟨-, hread, hdescriptor, hsignature⟩ := Member.fieldHeader_eq_ok hheader
  obtain ⟨hkept, -, hdescriptor', hsignature'⟩ := Resolver.mayGive_resolveField hresolved
  obtain ⟨hsettles, hmember, -⟩ := settles_of_member Resolver.resolveDescriptor
    Resolver.resolveFieldSignature h hrests hread hname hdescriptor
    (Resolver.eq_or_marked_of_resolveDescriptor hdescriptor')
    (Resolver.rests_resolveDescriptor hplain hdescriptor') htext hsignature
    (fun _ heq => Resolver.marked_of_resolveFieldSignature (heq ▸ hsignature'))
    (Resolver.rests_resolveFieldSignature hmode hplain hsignature') hset
  refine ⟨hsettles, hmember, ?_⟩
  rw [hflags, hkept]
  exact Resolver.keptFieldFlags_keptFieldFlags header.flags

theorem settles_of_confineMethod (h : editor.pool.Regular) (hrests : ClassesAtRest r editor)
    {method confined : Method} (hrun : Gives (r.confineMethod method) editor confined later) :
    Settles r editor later ∧ MethodSettled r later.pool confined := by
  obtain ⟨exceptions, header, resolved, middle, next, hexceptions, hheader, hresolved, htext, hset, hclasses, hname,
    hflags⟩ := Resolver.exists_of_confineMethod hrun
  obtain ⟨-, hread, hdescriptor, hsignature, hnames⟩ := Member.methodHeader_eq_ok hheader
  obtain ⟨hkept, -, hdescriptor', hsignature', hnames'⟩ := Resolver.mayGive_resolveMethod hresolved
  obtain ⟨hmoved, hmember, hreads⟩ := settles_of_member Resolver.resolveMethodDescriptor
    Resolver.resolveSignature h hrests hread hname hdescriptor
    (Resolver.eq_or_marked_of_resolveMethodDescriptor hdescriptor')
    (Resolver.rests_resolveMethodDescriptor hplain hdescriptor') htext hsignature
    (fun _ heq => Resolver.marked_of_resolveSignature (heq ▸ hsignature'))
    (Resolver.rests_resolveSignature hmode hplain hsignature') hset
  have hassigned := fun entry hmem => exists_of_mem_zip_of_mapM hnames hnames' entry hmem
  have hlast : Settles r next later := by
    refine settles_of_setClasses (hmoved.proceeds.regular h) hmoved.atRest (fun entry hmem => ?_)
      (fun entry hmem => ?_) hclasses
    · obtain ⟨old, hold, hnew⟩ := hassigned entry hmem
      exact (offered_of_read hold hnew).proceeds h hmoved.proceeds
    · obtain ⟨old, -, hnew⟩ := hassigned entry hmem
      exact Resolver.rests_resolveClass_of_mayGive hmode hplain hnew
  refine ⟨hmoved.trans hlast, hmember.mono hlast.keeps, ?_, exceptions, ?_, fun index hmem => ?_⟩
  · rw [hflags, hkept]
    exact header.flags.without_without synchronizedFlag
  · exact declaredExceptions_later hlast.keeps (hreads exceptions hexceptions)
  · obtain ⟨name, hclass⟩ := exists_mapM_iff.1 ⟨_, hnames⟩ index hmem
    obtain ⟨text, hclass, -⟩ := classNameAt_eq_ok_iff.1 hclass
    exact exists_classRef_later (hmoved.trans hlast).keeps hclass

end Strict

/-- What is settled for each member in turn stays so while the others are confined. -/
theorem settles_of_mapM {kind : Declared} (Settled : ConstantPool → Member kind → Prop)
    {confineMember : Member kind → Confinement (Member kind)}
    (hmono : ∀ {editor later : PoolEditor} {member : Member kind}, editor.pool.KeepsConstants later.pool →
      Settled editor.pool member → Settled later.pool member)
    (hstep : ∀ {editor later : PoolEditor} {before after : Member kind}, editor.pool.Regular →
      ClassesAtRest r editor → Gives (confineMember before) editor after later →
        Settles r editor later ∧ Settled later.pool after)
    (h : editor.pool.Regular) (hrests : ClassesAtRest r editor) {members confined : List (Member kind)}
    (hrun : Gives (members.mapM confineMember) editor confined later) :
    Settles r editor later ∧ ∀ member ∈ confined, Settled later.pool member := by
  have hstays : ∀ {editor later : PoolEditor} {_ after : Member kind}, Settles r editor later →
      Settled editor.pool after → Settled later.pool after := fun hsettles => hmono hsettles.keeps
  obtain ⟨hsettles, hall⟩ := (progress_settles r).mapM @hstays
    (fun hready hrun => hstep hready.1 hready.2 hrun) ⟨h, hrests⟩ hrun
  refine ⟨hsettles, fun member hmem => ?_⟩
  obtain ⟨_, -, hsettled⟩ := exists_of_mem_of_forall₂ hall member hmem
  exact hsettled

/-! ## The sweep -/

section Strict

variable (hmode : r.settings.mode = .strict) (hplain : r.settings.Plain)

include hmode hplain

/-- A constant that is confined comes to rest, unless it is a class that is settled. -/
theorem atRest_of_confineConstant (h : editor.pool.Sound) {constant : Constant}
    (hold : editor.pool.constantAt index = .ok constant)
    (hsettled : index ∈ editor.settled → constant.AtRest r editor.pool) {u : Unit}
    (hrun : Gives (r.confineConstant index constant) editor u later) :
    ∃ constant', later.pool.constantAt index = .ok constant' ∧ constant'.AtRest r later.pool := by
  unfold Resolver.confineConstant at hrun
  split at hrun
  · obtain ⟨_, _, hget, hrun⟩ := gives_bind hrun
    obtain ⟨rfl, rfl⟩ := gives_get hget
    split at hrun
    · rename_i hmem
      obtain ⟨-, rfl⟩ := gives_pure hrun
      exact ⟨_, hold, hsettled hmem⟩
    · obtain ⟨-, -, old, new, found, -, hnew, hat, hfound⟩ :=
        gives_confineText h .classRef (by rintro _ _ ⟨⟩) hold hrun
      exact ⟨_, hat, new, hfound, Resolver.rests_resolveClass_of_mayGive hmode hplain hnew⟩
  · rename_i name descriptor
    obtain ⟨-, -, old, new, found, -, hnew, hat, hfound⟩ :=
      gives_confineText h (.nameAndType name) (by rintro _ _ ⟨⟩) hold hrun
    exact ⟨_, hat, new, hfound, Resolver.rests_resolveAnyDescriptor hmode hplain hnew⟩
  · obtain ⟨-, -, old, new, found, -, hnew, hat, hfound⟩ :=
      gives_confineText h .methodType (by rintro _ _ ⟨⟩) hold hrun
    exact ⟨_, hat, new, hfound, Resolver.rests_resolveMethodDescriptor hplain hnew⟩
  · rename_i noClass noPair noType
    obtain ⟨-, rfl⟩ := gives_pure hrun
    refine ⟨constant, hold, ?_⟩
    cases constant with
    | classRef => exact absurd rfl (noClass _)
    | nameAndType => exact absurd rfl (noPair _ _)
    | methodType => exact absurd rfl (noType _)
    | _ => trivial

theorem atRest_of_sweep {constants : List (Nat × Constant)}
    (hdistinct : (constants.map fun entry => UInt16.ofNat entry.1).Nodup) (h : editor.pool.Sound)
    (hold : ∀ entry ∈ constants, editor.pool.constantAt (UInt16.ofNat entry.1) = .ok entry.2)
    (hsettled : ∀ entry ∈ constants, UInt16.ofNat entry.1 ∈ editor.settled → entry.2.AtRest r editor.pool) {u : Unit}
    (hrun : Gives (constants.forM fun (offset, constant) => r.confineConstant (UInt16.ofNat offset) constant)
      editor u later) :
    ∀ entry ∈ constants, ∃ constant, later.pool.constantAt (UInt16.ofNat entry.1) = .ok constant ∧
      constant.AtRest r later.pool := by
  induction constants generalizing editor with
  | nil => exact nofun
  | cons entry rest ih =>
    obtain ⟨_, middle, hfirst, hrest⟩ := gives_bind hrun
    obtain ⟨hfresh, hdistinct⟩ := List.nodup_cons.1 hdistinct
    rw [List.forall_mem_cons] at hold hsettled ⊢
    obtain ⟨hrepoints, hsame, -⟩ := gives_confineConstant h hold.1 hfirst
    obtain ⟨constant, hat, hrests⟩ := atRest_of_confineConstant hmode hplain h hold.1 hsettled.1 hfirst
    have hkept : ∀ other ∈ rest, middle.pool.constantAt (UInt16.ofNat other.1) = .ok other.2 := fun other hmem =>
      hrepoints.others _ _ (fun heq => hfresh (List.mem_map.2 ⟨other, hmem, heq⟩)) (hold.2 other hmem)
    obtain ⟨htexts, -, -, hothers⟩ := sweep_mediates hdistinct hrepoints.sound hkept hrest
    -- The rest of the sweep does not come back to this constant, and keeps the text to which it points.
    refine ⟨⟨constant, hothers _ _ hfresh hat, hrests.mono htexts⟩,
      ih hdistinct hrepoints.sound hkept (fun other hmem hbefore => ?_) hrest⟩
    exact (hsettled.2 other hmem (hsame ▸ hbefore)).mono hrepoints.texts

/-- What the sweep does not meet are texts. -/
theorem atRest_of_forM_confineConstant (h : editor.pool.Regular) (hrests : ClassesAtRest r editor) {u : Unit}
    (hrun : Gives (editor.pool.constants.toList.forM fun (offset, constant) =>
      r.confineConstant (UInt16.ofNat offset) constant) editor u later) :
    Steps editor.pool later.pool ∧
      ∀ index constant, later.pool.constantAt index = .ok constant → constant.AtRest r later.pool := by
  have hold : ∀ entry ∈ editor.pool.constants.toList,
      editor.pool.constantAt (UInt16.ofNat entry.1) = .ok entry.2 := fun _ => constantAt_of_mem h.sound
  have hdistinct := nodup_indices h.sound
  have hsteps := steps_of_sweep hdistinct h hold hrun
  refine ⟨hsteps, fun index constant hc => ?_⟩
  rcases (keepsConstants_of_steps hsteps h).added index constant hc with ⟨before, hbefore⟩ | ⟨-, content, rfl, -⟩
  · have hall := atRest_of_sweep hmode hplain hdistinct h.sound hold (fun entry hmem hsettled => ?_) hrun _
      (mem_of_constantAt h.sound hbefore)
    · rw [UInt16.ofNat_toNat] at hall
      obtain ⟨found, hat, hrest⟩ := hall
      obtain rfl := Except.ok.inj (hat.symm.trans hc)
      exact hrest
    · obtain ⟨name, hname, hrest⟩ := hrests _ hsettled
      obtain ⟨text, hclass, htext⟩ := classNameAt_eq_ok_iff.1 hname
      obtain heq := Except.ok.inj ((hold entry hmem).symm.trans hclass)
      rw [heq]
      exact ⟨name, htext, hrest⟩
  · trivial

end Strict

end Confinement

/-! ## Confined classes -/

open Confinement

section

variable {file : ClassFile} {pool : ConstantPool}

theorem Confinement.FieldSettled.atRest {field : Field} (h : FieldSettled r pool field) :
    Member.FieldAtRest r pool field := by
  obtain ⟨name, hname⟩ := h.name
  obtain ⟨descriptor, hdescriptor, hrests⟩ := h.descriptor
  obtain ⟨signature, hsignature, hrests'⟩ := h.signature
  refine ⟨⟨field.flags, name, descriptor, signature⟩, ?_, ?_⟩
  · rw [Member.fieldHeader, hname, hdescriptor, hsignature]
    rfl
  · refine hrests.bind (hrests'.bind ?_)
    rw [h.flags]
    exact Resolver.rests_pure

section Classes

variable (hconstants : ∀ index constant, pool.constantAt index = .ok constant → constant.AtRest r pool)

include hconstants

theorem exists_of_classRef {index text : ConstantIndex} (hclass : pool.constantAt index = .ok (.classRef text)) :
    ∃ name, pool.classNameAt index = .ok name ∧ r.Rests (r.resolveClass name) name := by
  obtain ⟨name, htext, hrests⟩ := hconstants index _ hclass
  exact ⟨name, classNameAt_eq_ok_iff.2 ⟨text, hclass, htext⟩, hrests⟩

theorem exists_of_classRefs {indices : List ConstantIndex}
    (hclasses : ∀ index ∈ indices, ∃ text, pool.constantAt index = .ok (.classRef text)) :
    ∃ names, indices.mapM pool.classNameAt = .ok names ∧ r.Rests (names.mapM r.resolveClass) names := by
  have hread : ∀ index ∈ indices, ∃ name, pool.classNameAt index = .ok name ∧ r.Rests (r.resolveClass name) name :=
    fun index hmem => (hclasses index hmem).elim fun _ hclass => exists_of_classRef hconstants hclass
  obtain ⟨names, hnames⟩ := exists_mapM_iff.2 fun index hmem => (hread index hmem).imp fun _ => And.left
  refine ⟨names, hnames, Resolver.rests_listMapM fun name hmem => ?_⟩
  obtain ⟨index, hindex, hname⟩ := exists_of_mem_of_forall₂ (forall₂_of_mapM hnames) name hmem
  obtain ⟨name', hname', hrests⟩ := hread index hindex
  obtain rfl := Except.ok.inj (hname.symm.trans hname')
  exact hrests

theorem Confinement.MethodSettled.atRest {method : Method} (h : MethodSettled r pool method) :
    Member.MethodAtRest r pool method := by
  obtain ⟨name, hname⟩ := h.name
  obtain ⟨descriptor, hdescriptor, hrests⟩ := h.descriptor
  obtain ⟨signature, hsignature, hrests'⟩ := h.signature
  obtain ⟨exceptions, hexceptions, hclasses⟩ := h.exceptions
  obtain ⟨names, hnames, hrests''⟩ := exists_of_classRefs hconstants hclasses
  refine ⟨exceptions, ⟨method.flags, name, descriptor, signature, names⟩, hexceptions, ?_, ?_⟩
  · rw [Member.methodHeader, hname, hdescriptor, hsignature, hnames]
    rfl
  · refine hrests.bind (hrests'.bind (hrests''.bind ?_))
    rw [h.flags]
    exact Resolver.rests_pure

end Classes

/-- The classes of a header stay classes, so all that is read off the header is at rest. -/
theorem headerAtRest_of_classes {confined : ClassFile} {header : ClassHeader} (hheader : file.header = .ok header)
    (hconfined : confined.thisClass = file.thisClass ∧ confined.superClass = file.superClass ∧
      confined.interfaces = file.interfaces)
    (hkeeps : file.pool.KeepsConstants confined.pool)
    (hconstants : ∀ index constant, confined.pool.constantAt index = .ok constant →
      constant.AtRest r confined.pool)
    {signature : Option String} (hsignature : firstSignature confined.pool confined.attributes = .ok signature)
    (hrests : r.Rests (r.resolveSignature signature) signature) : confined.HeaderAtRest r := by
  obtain ⟨hthis, hsuper, hinterfaces⟩ := hconfined
  obtain ⟨hname, hsuperName, hinterfaceNames, -⟩ := ClassFile.header_eq_ok hheader
  have hstays : ∀ {index : ConstantIndex} {name : String}, file.pool.classNameAt index = .ok name →
      ∃ text, confined.pool.constantAt index = .ok (.classRef text) := fun hread => by
    obtain ⟨text, hclass, -⟩ := classNameAt_eq_ok_iff.1 hread
    exact exists_classRef_later hkeeps hclass
  obtain ⟨name, hname', hrestsName⟩ := (hstays hname).elim fun _ => exists_of_classRef hconstants
  have hfound : ∃ superName, confined.superName = .ok superName ∧
      r.Rests (superName.mapM r.resolveClass) superName := by
    rw [ClassFile.superName] at hsuperName ⊢
    rw [hsuper]
    cases hindex : file.superClass with
    | none => exact ⟨none, rfl, Resolver.rests_pure⟩
    | some index =>
      rw [hindex, Option.mapM_some, ← bind_pure_comp] at hsuperName
      obtain ⟨old, hold, -⟩ := except_bind_eq_ok_iff.1 hsuperName
      obtain ⟨name, hname, hrests⟩ := (hstays hold).elim fun _ => exists_of_classRef hconstants
      refine ⟨some name, ?_, Resolver.rests_optionMapM fun _ hmem => ?_⟩
      · rw [Option.mapM_some, hname]
        rfl
      · obtain rfl := Option.some.inj hmem
        exact hrests
  obtain ⟨superName, hsuperName', hrestsSuper⟩ := hfound
  obtain ⟨interfaces, hinterfaces', hrestsInterfaces⟩ := exists_of_classRefs hconstants fun index hmem => by
    obtain ⟨old, hold⟩ := exists_mapM_iff.1 ⟨_, hinterfaceNames⟩ index hmem
    exact hstays hold
  refine ⟨⟨name, superName, interfaces, signature⟩, ?_, ?_⟩
  · rw [ClassFile.header, ClassFile.thisName, hthis, hname', hsuperName', ClassFile.interfaceNames, hinterfaces,
      hinterfaces', hsignature]
    rfl
  · exact hrestsName.bind (hrestsSuper.bind (hrestsInterfaces.bind (hrests.bind Resolver.rests_pure)))

/-- In strict mode, what confinement leaves of a class that was read from bytes is at rest. -/
theorem atRest_of_confine {bytes : Bytes} {confined : ClassFile} {before after : Findings}
    (hmode : r.settings.mode = .strict) (hplain : r.settings.Plain) (hparse : ClassFile.parse bytes = .ok file)
    (hrun : outcome (r.confine file) before = (.ok confined, after)) :
    confined.pool.Sound ∧ confined.AtRest r := by
  have h := ClassFile.regular_of_parse hparse
  obtain ⟨headed, between, swept, later, hheader, hfields, hmethods, hsweep, hconfined⟩ :=
    Resolver.exists_of_confine hrun
  obtain ⟨header, _, _, hread, -⟩ := Resolver.exists_of_confineHeader hheader
  obtain ⟨hfirst, signature, hsignature, hrests⟩ := settles_of_confineHeader hmode hplain h hheader
  obtain ⟨hsecond, hfields⟩ := settles_of_mapM (FieldSettled r) (fun hkeeps hfield => hfield.mono hkeeps)
    (fun h hrests hrun => settles_of_confineField hmode hplain h hrests hrun) (hfirst.proceeds.regular h)
    hfirst.atRest hfields
  have hbefore := hfirst.trans hsecond
  obtain ⟨hthird, hmethods⟩ := settles_of_mapM (MethodSettled r) (fun hkeeps hmethod => hmethod.mono hkeeps)
    (fun h hrests hrun => settles_of_confineMethod hmode hplain h hrests hrun) (hbefore.proceeds.regular h)
    hbefore.atRest hmethods
  have hall := hbefore.trans hthird
  have hregular := hall.proceeds.regular h
  obtain ⟨hswept, hconstants⟩ := atRest_of_forM_confineConstant hmode hplain hregular hall.atRest hsweep
  have hlast := keepsConstants_of_steps hswept hregular
  have hafterHeader := (hsecond.keeps.trans hthird.keeps).trans hlast
  have hkeeps := hfirst.keeps.trans hafterHeader
  rw [hconfined]
  exact ⟨(regular_of_steps hswept hregular).sound,
    { header := headerAtRest_of_classes hread ⟨rfl, rfl, rfl⟩ hkeeps hconstants
        (firstSignature_later hafterHeader hsignature) hrests
      fields := fun field hmem => ((hfields field hmem).mono (hthird.keeps.trans hlast)).atRest
      methods := fun method hmem => ((hmethods method hmem).mono hlast).atRest hconstants
      constants := hconstants }⟩

end

end ClassSandbox
