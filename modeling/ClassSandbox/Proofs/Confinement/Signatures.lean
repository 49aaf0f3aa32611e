import ClassSandbox.Proofs.Bytes
import ClassSandbox.Proofs.Confinement.Frame
import ClassSandbox.Proofs.Confinement.Plain
import ClassSandbox.Proofs.Resolution.Signatures

/-!
# Signatures are resolved

Of the attributes of a class, a field or a method that are signatures, the first one holds the resolved signature
when the class is confined, or it is gone (`SignatureSettled`). To read the first signature and to find it again
are two searches, which end at the same attribute (`FirstSignature.unique`). Any further signatures are not
looked at, so `confine_resolvesSignatures` says what the signatures of a confined class are: the resolved first
one, and those that came after it.
-/

namespace ClassSandbox

open ConstantPool

/-! ## Attributes that hold signatures -/

/-- The attribute is a signature, which points to this text. -/
def Attribute.HoldsSignature (pool : ConstantPool) (item : Attribute) (signature : String) : Prop :=
  ∃ index, item.decodeAs signatureKind pool = .ok (some index) ∧ pool.textAt index = .ok signature

variable {pool later last : ConstantPool} {item : Attribute} {signature : String}

theorem Attribute.decodeAs_eq_some_iff {index : ConstantIndex} :
    item.decodeAs signatureKind pool = .ok (some index) ↔
      pool.textAt item.name = .ok signatureKind.name ∧ Decoder.u16 item.info = .ok (index, []) := by
  unfold decodeAs
  rw [except_bind_eq_ok_iff]
  constructor
  · rintro ⟨name, hname, h⟩
    split at h
    · cases h
    · rename_i hsame
      rw [Decidable.not_not] at hsame
      refine ⟨hname.trans (congrArg _ hsame), ?_⟩
      split at h
      · cases h
      · rename_i hdecode
        cases h
        exact hdecode
      · cases h
  · rintro ⟨hname, hdecode⟩
    refine ⟨_, hname, ?_⟩
    rw [if_neg (Decidable.not_not.2 rfl), show signatureKind.decode item.info = _ from hdecode]
    rfl

theorem Attribute.textAt_of_decodeAs_eq_none (h : item.decodeAs signatureKind pool = .ok none) :
    pool.textAt item.name ≠ .ok signatureKind.name := by
  intro hsignature
  obtain ⟨name, hname, h⟩ := except_bind_eq_ok_iff.1 h
  obtain rfl : signatureKind.name = name := Except.ok.inj (hsignature.symm.trans hname)
  rw [if_neg (Decidable.not_not.2 rfl)] at h
  split at h <;> cases h

theorem Attribute.decodeAs_mono {Contents : Type} {kind : AttributeKind Contents} {found : Option Contents}
    (hkeeps : pool.KeepsConstants later) (h : item.decodeAs kind pool = .ok found) :
    item.decodeAs kind later = .ok found := by
  obtain ⟨name, hname, h⟩ := except_bind_eq_ok_iff.1 h
  exact except_bind_eq_ok_iff.2 ⟨name, hkeeps.textAt hname, h⟩

theorem Attribute.HoldsSignature.mono (hkeeps : pool.KeepsConstants later)
    (h : item.HoldsSignature pool signature) : item.HoldsSignature later signature := by
  obtain ⟨index, hdecode, htext⟩ := h
  exact ⟨index, decodeAs_mono hkeeps hdecode, hkeeps.textAt htext⟩

/-! ## The first signature -/

namespace FirstSignature

variable {front back front' back' : List Attribute} {item' : Attribute}

theorem mono (hkeeps : pool.KeepsConstants later) (h : FirstSignature pool front item) :
    FirstSignature later front item where
  here := hkeeps.textAt h.here
  notBefore other hmem hname :=
    h.notBefore other hmem (hkeeps.textAt_of_not_marked not_marked_signature hname)

/-- There is only one first signature. -/
theorem unique (h : FirstSignature pool front item) (h' : FirstSignature pool front' item')
    (hsame : front ++ item :: back = front' ++ item' :: back') :
    front = front' ∧ item = item' ∧ back = back' := by
  rcases List.append_eq_append_iff.1 hsame with ⟨more, rfl, hrest⟩ | ⟨more, rfl, hrest⟩
  · cases more with
    | nil =>
      cases hrest
      exact ⟨(List.append_nil _).symm, rfl, rfl⟩
    | cons other more =>
      cases hrest
      exact absurd h.here (h'.notBefore _ (by simp))
  · cases more with
    | nil =>
      cases hrest
      exact ⟨List.append_nil _, rfl, rfl⟩
    | cons other more =>
      cases hrest
      exact absurd h'.here (h.notBefore _ (by simp))

end FirstSignature

namespace Confinement

/-- The attributes before the first signature can be read, and are none. -/
theorem exists_of_firstSignature {items : List Attribute} (h : firstSignature pool items = .ok (some signature)) :
    ∃ front item back, items = front ++ item :: back ∧ item.HoldsSignature pool signature ∧
      ∀ other ∈ front, other.decodeAs signatureKind pool = .ok none := by
  induction items with
  | nil => cases h
  | cons item items ih =>
    obtain ⟨found, hdecode, h⟩ := except_bind_eq_ok_iff.1 h
    cases found with
    | some index =>
      obtain ⟨text, htext, h⟩ := except_bind_eq_ok_iff.1 h
      cases h
      exact ⟨[], item, items, rfl, ⟨index, hdecode, htext⟩, nofun⟩
    | none =>
      obtain ⟨front, first, back, rfl, hholds, hfront⟩ := ih h
      exact ⟨item :: front, first, back, rfl, hholds, List.forall_mem_cons.2 ⟨hdecode, hfront⟩⟩

theorem firstSignature_of_holds {front : List Attribute} (hholds : item.HoldsSignature pool signature)
    (hfront : ∀ other ∈ front, other.decodeAs signatureKind pool = .ok none) :
    FirstSignature pool front item := by
  obtain ⟨index, hdecode, -⟩ := hholds
  exact ⟨(Attribute.decodeAs_eq_some_iff.1 hdecode).1, fun other hmem =>
    Attribute.textAt_of_decodeAs_eq_none (hfront other hmem)⟩

theorem ne_of_firstSignature {items : List Attribute} (h : firstSignature pool items = .ok none) :
    ∀ item ∈ items, pool.textAt item.name ≠ .ok signatureKind.name := by
  induction items with
  | nil => exact fun _ hmem => nomatch hmem
  | cons item items ih =>
    obtain ⟨found, hdecode, h⟩ := except_bind_eq_ok_iff.1 h
    cases found with
    | some index =>
      obtain ⟨_, _, h⟩ := except_bind_eq_ok_iff.1 h
      cases h
    | none =>
      rw [List.forall_mem_cons]
      exact ⟨Attribute.textAt_of_decodeAs_eq_none hdecode, ih h⟩

theorem ne_of_signaturePosition? {start : Nat} {items : List Attribute}
    (h : signaturePosition? pool start items = .ok none) :
    ∀ item ∈ items, pool.textAt item.name ≠ .ok signatureKind.name := by
  induction items generalizing start with
  | nil => exact fun _ hmem => nomatch hmem
  | cons item items ih =>
    obtain ⟨name, hname, h⟩ := except_bind_eq_ok_iff.1 h
    split at h
    · cases h
    · rename_i hother
      rw [List.forall_mem_cons]
      exact ⟨fun hsignature => hother (Except.ok.inj (hname.symm.trans hsignature)), ih h⟩

end Confinement

/-! ## What becomes of the first signature -/

/-- An operation on optional signatures gives this result, whatever was found before. -/
def Resolver.ResolvesSignature (r : Resolver) (operation : Resolver → Option String → Resolution (Option String))
    (old new : Option String) : Prop :=
  ∀ findings, (outcome (operation r old) findings).1 = .ok new

/-- The first signature is resolved, or gone, and there is nothing to do if there is none. -/
inductive SignatureSettled (r : Resolver) (operation : Resolver → Option String → Resolution (Option String))
    (pool : ConstantPool) : List Attribute → List Attribute → Prop where
  | absent {items : List Attribute} (none : ∀ item ∈ items, pool.textAt item.name ≠ .ok signatureKind.name) :
      SignatureSettled r operation pool items items
  | resolved {front back : List Attribute} {old new : Attribute} {signature signature' : String}
      (first : FirstSignature pool front old) (before : old.HoldsSignature pool signature)
      (resolves : r.ResolvesSignature operation (some signature) (some signature'))
      (after : new.HoldsSignature pool signature') :
      SignatureSettled r operation pool (front ++ old :: back) (front ++ new :: back)
  | dropped {front back : List Attribute} {old : Attribute} {signature : String}
      (first : FirstSignature pool front old) (before : old.HoldsSignature pool signature)
      (resolves : r.ResolvesSignature operation (some signature) none) :
      SignatureSettled r operation pool (front ++ old :: back) (front ++ back)

section

variable {r : Resolver} {operation : Resolver → Option String → Resolution (Option String)}
  {items items' : List Attribute}

theorem SignatureSettled.mono (hkeeps : pool.KeepsConstants later)
    (h : SignatureSettled r operation pool items items') : SignatureSettled r operation later items items' := by
  cases h with
  | absent none =>
    exact .absent fun item hmem hname =>
      none item hmem (hkeeps.textAt_of_not_marked not_marked_signature hname)
  | resolved first before resolves after =>
    exact .resolved (first.mono hkeeps) (before.mono hkeeps) resolves (after.mono hkeeps)
  | dropped first before resolves => exact .dropped (first.mono hkeeps) (before.mono hkeeps) resolves

/-- A signature that is written can be read again. -/
theorem Confinement.holdsSignature_of_write {editor written : PoolEditor} (h : editor.pool.Regular)
    {name contents : ConstantIndex} (hname : editor.pool.textAt name = .ok signatureKind.name)
    (hcontents : editor.pool.textAt contents = .ok signature)
    (hrun : Gives (onPool (signatureKind.write contents)) editor item written) :
    item.HoldsSignature written.pool signature := by
  obtain ⟨rfl, -⟩ := gives_writeSignature_of_indexed h.indexed hname hrun
  obtain ⟨found, middle, htext, hwrite⟩ := outcome_bind_eq_ok_iff.1 (gives_onPool hrun).1
  have hfound := (PoolAction.outcome_text_ok h.sound htext).2.2
  cases hwrite
  refine ⟨contents, Attribute.decodeAs_eq_some_iff.2 ⟨textAt_eq_ok_iff.2 hfound, ?_⟩, hcontents⟩
  simpa using Decoder.reads_u16 contents []

/-- Unless the signature stays, the first one is replaced or dropped. -/
theorem Confinement.exists_of_setSignature {editor written : PoolEditor} (h : editor.pool.Regular)
    {old new : Option String} (hmarked : ∀ signature, new = some signature → Marked signature) (hne : old ≠ new)
    (hrun : Gives (setSignature items old new) editor items' written) :
    (∀ item ∈ items, editor.pool.textAt item.name ≠ .ok signatureKind.name) ∧ items' = items ∨
      ∃ front first back, items = front ++ first :: back ∧ FirstSignature editor.pool front first ∧
        (new = none ∧ items' = front ++ back ∨
          ∃ signature item, new = some signature ∧ items' = front ++ item :: back ∧
            item.HoldsSignature written.pool signature) := by
  rw [setSignature, if_neg hne] at hrun
  obtain ⟨position?, _, hsearch, hrun⟩ := gives_bind hrun
  obtain ⟨hposition, rfl⟩ := gives_fromPool hsearch
  cases position? with
  | none =>
    obtain ⟨rfl, rfl⟩ := gives_pure hrun
    exact .inl ⟨ne_of_signaturePosition? hposition, rfl⟩
  | some position =>
    obtain ⟨front, first, back, rfl, rfl, hfirst⟩ := signaturePosition?_eq_some hposition
    refine .inr ⟨front, first, back, rfl, hfirst, ?_⟩
    rw [Nat.zero_add] at hrun
    cases new with
    | none =>
      obtain ⟨rfl, rfl⟩ := gives_pure hrun
      rw [List.eraseIdx_append_of_length_le (Nat.le_refl _), Nat.sub_self]
      exact .inl ⟨rfl, rfl⟩
    | some signature =>
      obtain ⟨text, middle, htext, hrun⟩ := gives_bind hrun
      obtain ⟨item, _, hwrite, hrun⟩ := gives_bind hrun
      obtain ⟨rfl, rfl⟩ := gives_pure hrun
      have hmiddle := proceeds_of_text h (hmarked _ rfl) htext
      have hname := (hmiddle.keepsConstants h).textAt hfirst.here
      rw [List.set_append_right _ _ (Nat.le_refl _), Nat.sub_self]
      exact .inr ⟨signature, item, rfl, rfl,
        holdsSignature_of_write (hmiddle.regular h) hname (gives_text h.sound htext).2 hwrite⟩

/-- The signature that was read is the one whose attribute changes. -/
theorem Confinement.settled_of_setSignature {editor written : PoolEditor} (h : editor.pool.Regular)
    (hkeeps : pool.KeepsConstants editor.pool) {old new : Option String}
    (hread : firstSignature pool items = .ok old) (hresolves : r.ResolvesSignature operation old new)
    (hnone : old = none → new = none) (hmarked : ∀ signature, new = some signature → Marked signature)
    (hrun : Gives (setSignature items old new) editor items' written) :
    SignatureSettled r operation written.pool items items' := by
  have hproceeds := (gives_setSignature_of_regular h hmarked hrun).1
  have hlater := hkeeps.trans (hproceeds.keepsConstants h)
  cases old with
  | none =>
    obtain rfl := hnone rfl
    rw [setSignature, if_pos rfl] at hrun
    obtain ⟨rfl, rfl⟩ := gives_pure hrun
    exact .absent fun item hmem hname => ne_of_firstSignature hread item hmem
      (hlater.textAt_of_not_marked not_marked_signature hname)
  | some signature =>
    obtain ⟨front, first, back, rfl, hholds, hfront⟩ := exists_of_firstSignature hread
    have hfirst := firstSignature_of_holds hholds hfront
    by_cases hsame : some signature = new
    · subst hsame
      rw [setSignature, if_pos rfl] at hrun
      obtain ⟨rfl, rfl⟩ := gives_pure hrun
      exact .resolved (hfirst.mono hlater) (hholds.mono hlater) hresolves (hholds.mono hlater)
    · rcases exists_of_setSignature h hmarked hsame hrun with
        ⟨habsent, -⟩ | ⟨front', first', back', hitems, hfirst', hnew⟩
      · exact absurd (hfirst.mono hkeeps).here (habsent first (by simp))
      · obtain ⟨rfl, rfl, rfl⟩ := (hfirst.mono hkeeps).unique hfirst' hitems
        rcases hnew with ⟨rfl, rfl⟩ | ⟨signature', item, rfl, rfl, hwritten⟩
        · exact .dropped (hfirst.mono hlater) (hholds.mono hlater) hresolves
        · exact .resolved (hfirst.mono hlater) (hholds.mono hlater) hresolves hwritten

end

/-! ## Header, fields and methods -/

namespace Confinement

variable {r : Resolver} {editor later : PoolEditor}

theorem resolvesSignature_of_mayGive {operation : Resolver → Option String → Resolution (Option String)}
    {old new : Option String} (h : MayGive (operation r old) new)
    (hsame : results.Rel (operation r old) (operation r old)) : r.ResolvesSignature operation old new := by
  intro findings
  obtain ⟨before, after, hrun⟩ := h
  rw [hsame findings before, hrun]

theorem resolvesSignature_of_resolveSignature {old new : Option String}
    (h : MayGive (r.resolveSignature old) new) : r.ResolvesSignature Resolver.resolveSignature old new :=
  resolvesSignature_of_mayGive h ((r.results_matches r.silenced).resolveSignature old)

theorem resolvesSignature_of_resolveFieldSignature {old new : Option String}
    (h : MayGive (r.resolveFieldSignature old) new) : r.ResolvesSignature Resolver.resolveFieldSignature old new :=
  resolvesSignature_of_mayGive h ((r.results_matches r.silenced).resolveFieldSignature old)

theorem settled_of_confineHeader {file : ClassFile} (h : file.pool.Regular) {attributes : List Attribute}
    (hrun : Gives (r.confineHeader file) ⟨file.pool, ∅⟩ attributes later) :
    SignatureSettled r Resolver.resolveSignature later.pool file.attributes attributes := by
  obtain ⟨header, resolved, middle, hheader, hresolved, hclasses, hset⟩ := Resolver.exists_of_confineHeader hrun
  obtain ⟨-, -, -, hread⟩ := ClassFile.header_eq_ok hheader
  obtain ⟨-, -, -, hsignature⟩ := Resolver.mayGive_resolveClassHeader hresolved
  have hfirst : Proceeds ⟨file.pool, ∅⟩ middle := proceeds_of_setClasses h (fun entry hmem => by
    obtain ⟨old, hold, hnew⟩ := Resolver.exists_of_mem_assignments hheader hresolved entry hmem
    exact offered_of_read hold hnew) hclasses
  refine settled_of_setSignature (hfirst.regular h) (hfirst.keepsConstants h) hread
    (resolvesSignature_of_resolveSignature hsignature) (fun hnone => ?_)
    (fun _ heq => Resolver.marked_of_resolveSignature (heq ▸ hsignature)) hset
  rw [hnone] at hsignature
  exact (mayGive_pure hsignature).symm

theorem settled_of_confineField (h : editor.pool.Regular) {field confined : Field}
    (hrun : Gives (r.confineField field) editor confined later) :
    SignatureSettled r Resolver.resolveFieldSignature later.pool field.attributes confined.attributes := by
  obtain ⟨header, resolved, middle, hheader, hresolved, htext, hset, -, -⟩ := Resolver.exists_of_confineField hrun
  obtain ⟨-, -, -, hread⟩ := Member.fieldHeader_eq_ok hheader
  obtain ⟨-, -, hdescriptor, hsignature⟩ := Resolver.mayGive_resolveField hresolved
  have hfirst := proceeds_of_newText h (Resolver.eq_or_marked_of_resolveDescriptor hdescriptor) htext
  refine settled_of_setSignature (hfirst.regular h) (hfirst.keepsConstants h) hread
    (resolvesSignature_of_resolveFieldSignature hsignature) (fun hnone => ?_)
    (fun _ heq => Resolver.marked_of_resolveFieldSignature (heq ▸ hsignature)) hset
  rw [hnone] at hsignature
  exact (mayGive_pure hsignature).symm

theorem settled_of_confineMethod (h : editor.pool.Regular) {method confined : Method}
    (hrun : Gives (r.confineMethod method) editor confined later) :
    SignatureSettled r Resolver.resolveSignature later.pool method.attributes confined.attributes := by
  obtain ⟨exceptions, header, resolved, middle, next, -, hheader, hresolved, htext, hset, hclasses, -, -⟩ :=
    Resolver.exists_of_confineMethod hrun
  obtain ⟨-, -, -, hread, hnames⟩ := Member.methodHeader_eq_ok hheader
  obtain ⟨-, -, hdescriptor, hsignature, hnames'⟩ := Resolver.mayGive_resolveMethod hresolved
  have hfirst := proceeds_of_newText h (Resolver.eq_or_marked_of_resolveMethodDescriptor hdescriptor) htext
  have hmarked : ∀ signature, resolved.signature = some signature → Marked signature :=
    fun _ heq => Resolver.marked_of_resolveSignature (heq ▸ hsignature)
  have hproceeds := hfirst.trans (gives_setSignature_of_regular (hfirst.regular h) hmarked hset).1
  have hlast := proceeds_of_setClasses (hproceeds.regular h) (fun entry hmem => by
    obtain ⟨old, hold, hnew⟩ := exists_of_mem_zip_of_mapM hnames hnames' entry hmem
    exact (offered_of_read hold hnew).proceeds h hproceeds) hclasses
  refine (settled_of_setSignature (hfirst.regular h) (hfirst.keepsConstants h) hread
    (resolvesSignature_of_resolveSignature hsignature) (fun hnone => ?_) hmarked hset).mono
    (hlast.keepsConstants (hproceeds.regular h))
  rw [hnone] at hsignature
  exact (mayGive_pure hsignature).symm

theorem progress_keepsConstants : Progress (fun editor => editor.pool.Regular)
    fun editor later => Proceeds editor later ∧ editor.pool.KeepsConstants later.pool where
  refl _ := ⟨.refl _, .refl _⟩
  trans h h' := ⟨h.1.trans h'.1, h.2.trans h'.2⟩
  ready hregular h := h.1.regular hregular

theorem settled_of_mapM {operation : Resolver → Option String → Resolution (Option String)} {kind : Declared}
    {flag : UInt16} {confineMember : Member kind → Confinement (Member kind)}
    (hproceeds : ∀ {editor later : PoolEditor} {before after : Member kind}, editor.pool.Regular →
      Gives (confineMember before) editor after later →
        Proceeds editor later ∧ MemberChange editor.pool flag before after)
    (hsettled : ∀ {editor later : PoolEditor} {before after : Member kind}, editor.pool.Regular →
      Gives (confineMember before) editor after later →
        SignatureSettled r operation later.pool before.attributes after.attributes)
    (h : editor.pool.Regular) {members confined : List (Member kind)}
    (hrun : Gives (members.mapM confineMember) editor confined later) :
    Proceeds editor later ∧ List.Forall₂ (fun before after : Member kind =>
      SignatureSettled r operation later.pool before.attributes after.attributes) members confined := by
  have hall := progress_keepsConstants.mapM (fun hmoves hmember => hmember.mono hmoves.2)
    (fun hregular hstep =>
      have hmember := (hproceeds hregular hstep).1
      ⟨⟨hmember, hmember.keepsConstants hregular⟩, hsettled hregular hstep⟩) h hrun
  exact ⟨hall.1.1, hall.2⟩

end Confinement

/-! ## Classes -/

open Confinement

/-- The signatures of a part of a class, once it is confined: the first one, resolved, and those that came after
it. -/
def SignaturesResolved (r : Resolver) (operation : Resolver → Option String → Resolution (Option String))
    (pool pool' : ConstantPool) (items items' : List Attribute) : Prop :=
  ∀ item' ∈ items', pool'.textAt item'.name = .ok signatureKind.name →
    ∃ front first back, items = front ++ first :: back ∧ FirstSignature pool front first ∧
      (item' ∈ back ∨ ∃ index signature signature', first.decodeAs signatureKind pool = .ok (some index) ∧
        pool'.textAt index = .ok signature ∧
        r.ResolvesSignature operation (some signature) (some signature') ∧ item'.HoldsSignature pool' signature')

theorem SignatureSettled.signaturesResolved {r : Resolver}
    {operation : Resolver → Option String → Resolution (Option String)} {items items' : List Attribute}
    (hkeeps : pool.KeepsConstants later) (h : SignatureSettled r operation later items items') :
    SignaturesResolved r operation pool later items items' := by
  intro item' hmem hname
  cases h with
  | absent none => exact absurd hname (none item' hmem)
  | @resolved front back old new signature signature' first before resolves after =>
    refine ⟨front, old, back, rfl, first.original hkeeps, ?_⟩
    rcases List.mem_append.1 hmem with hfront | hmem
    · exact absurd hname (first.notBefore item' hfront)
    rcases List.mem_cons.1 hmem with rfl | hback
    · obtain ⟨index, hdecode, htext⟩ := before
      rw [Attribute.decodeAs_eq_some_iff] at hdecode
      exact .inr ⟨index, signature, signature',
        Attribute.decodeAs_eq_some_iff.2 ⟨(first.original hkeeps).here, hdecode.2⟩, htext, resolves, after⟩
    · exact .inl hback
  | @dropped front back old signature first before resolves =>
    refine ⟨front, old, back, rfl, first.original hkeeps, .inl ?_⟩
    rcases List.mem_append.1 hmem with hfront | hback
    · exact absurd hname (first.notBefore item' hfront)
    · exact hback

/-- Of the signatures in a class that was read from bytes, the first one of each part is resolved or dropped, and
none is added. -/
theorem confine_resolvesSignatures {r : Resolver} {bytes : Bytes} {file confined : ClassFile}
    {before after : Findings} (hparse : ClassFile.parse bytes = .ok file)
    (hrun : outcome (r.confine file) before = (.ok confined, after)) :
    SignaturesResolved r Resolver.resolveSignature file.pool confined.pool file.attributes confined.attributes ∧
      List.Forall₂ (fun field field' : Field => SignaturesResolved r Resolver.resolveFieldSignature file.pool
        confined.pool field.attributes field'.attributes) file.fields confined.fields ∧
      List.Forall₂ (fun method method' : Method => SignaturesResolved r Resolver.resolveSignature file.pool
        confined.pool method.attributes method'.attributes) file.methods confined.methods := by
  have h := ClassFile.regular_of_parse hparse
  obtain ⟨headed, between, swept, later, hheader, hfields, hmethods, hsweep, hconfined⟩ :=
    Resolver.exists_of_confine hrun
  obtain ⟨hfirst, -⟩ := proceeds_of_confineHeader h hheader
  have hattributes := settled_of_confineHeader h hheader
  obtain ⟨hsecond, hfields⟩ := settled_of_mapM (fun h hrun => proceeds_of_confineField h hrun)
    (fun h hrun => settled_of_confineField h hrun) (hfirst.regular h) hfields
  have hbefore := hfirst.trans hsecond
  obtain ⟨hthird, hmethods⟩ := settled_of_mapM (fun h hrun => proceeds_of_confineMethod h hrun)
    (fun h hrun => settled_of_confineMethod h hrun) (hbefore.regular h) hmethods
  have hregular := (hbefore.trans hthird).regular h
  have hswept := keepsConstants_of_steps (steps_of_sweep (nodup_indices hregular.sound) hregular
    (fun entry hmem => constantAt_of_mem hregular.sound hmem) hsweep) hregular
  have hafterMethods := (hthird.keepsConstants (hbefore.regular h)).trans hswept
  have hafterHeader := (hsecond.keepsConstants (hfirst.regular h)).trans hafterMethods
  have hkeeps := (hfirst.keepsConstants h).trans hafterHeader
  rw [hconfined]
  exact ⟨(hattributes.mono hafterHeader).signaturesResolved hkeeps,
    hfields.imp fun _ _ hfield => (hfield.mono hafterMethods).signaturesResolved hkeeps,
    hmethods.imp fun _ _ hmethod => (hmethod.mono hswept).signaturesResolved hkeeps⟩

/-! ## An example -/

open Resolver (exampleResolver)

section Example

/-- A class with a field that has the same signature twice. -/
def twiceSignedBytes : Bytes :=
  [0xCA, 0xFE, 0xBA, 0xBE, 0, 0, 0, 52, 0, 6,
    1, 0, 7, 0x74, 0x65, 0x61, 0x6D, 0x31, 0x2F, 0x41,
    7, 0, 1,
    1, 0, 1, 0x78,
    1, 0, 15, 0x4C, 0x6A, 0x61, 0x76, 0x61, 0x2F, 0x75, 0x74, 0x69, 0x6C, 0x2F, 0x4D, 0x61, 0x70, 0x3B,
    1, 0, 9, 0x53, 0x69, 0x67, 0x6E, 0x61, 0x74, 0x75, 0x72, 0x65,
    0, 0x21, 0, 2, 0, 0, 0, 0, 0, 1, 0, 0, 0, 3, 0, 4, 0, 2, 0, 5, 0, 0, 0, 2, 0, 4, 0, 5, 0, 0, 0, 2, 0, 4,
    0, 0, 0, 0]

def signedPool : ConstantPool :=
  [.utf8 "team1/A", .classRef 1, .utf8 "x", .utf8 "Ljava/util/Map;", .utf8 "Signature"].foldl store empty

def mapSignature : Attribute := ⟨5, Encoder.u16 4⟩

def twiceSignedField : Field := ⟨.ofBits 0, 3, 4, [mapSignature, mapSignature]⟩

def twiceSignedClass : ClassFile := ⟨⟨0, 52⟩, signedPool, .ofBits 0x21, 2, none, [], [twiceSignedField], [], []⟩

def resignedPool : ConstantPool := signedPool.store (.utf8 "Lsandboxed/java/util/Map;")

def copiedSignature : Attribute := ⟨5, Encoder.u16 6⟩

def resignedField : Field := ⟨.ofBits 0, 3, 6, [copiedSignature, mapSignature]⟩

def resignedClass : ClassFile := { twiceSignedClass with pool := resignedPool, fields := [resignedField] }

theorem parse_twiceSignedBytes : ClassFile.parse twiceSignedBytes = .ok twiceSignedClass := by
  with_unfolding_all rfl

theorem outcome_resolveFieldSignature_map (findings : Findings) :
    outcome ((exampleResolver true).resolveFieldSignature (some "Ljava/util/Map;")) findings =
      (.ok (some "Lsandboxed/java/util/Map;"), findings) := by
  have hclass : outcome ((exampleResolver true).resolveClass "java/util/Map") findings =
      (.ok "sandboxed/java/util/Map", findings) :=
    Resolver.outcome_resolveClass_of_verdict rfl (Resolver.verdict_exampleResolver true)
  have hmap : "Ljava/util/Map;" = String.ofList ('L' :: "java/util/Map".toList ++ [';']) := by decide
  rw [hmap, Resolver.outcome_resolveFieldSignature_class (by decide) hclass]
  rfl

theorem outcome_text_signedPool :
    outcome (PoolAction.text "Lsandboxed/java/util/Map;") signedPool = (.ok 6, resignedPool) := by
  have hnew : signedPool.texts["Lsandboxed/java/util/Map;"]? = none :=
    Std.HashMap.getElem?_eq_none (by simp [signedPool, store, remember, empty])
  rw [PoolAction.outcome_text_of_new hnew, PoolAction.outcome_append]
  with_unfolding_all rfl

theorem outcome_text_resignedPool :
    outcome (PoolAction.text "Lsandboxed/java/util/Map;") resignedPool = (.ok 6, resignedPool) ∧
      outcome (PoolAction.text signatureKind.name) resignedPool = (.ok 5, resignedPool) := by
  have htexts : resignedPool.texts = (((((∅ : Std.HashMap String ConstantIndex).insertIfNew "team1/A"
      1).insertIfNew "x" 3).insertIfNew "Ljava/util/Map;" 4).insertIfNew "Signature" 5).insertIfNew
        "Lsandboxed/java/util/Map;" 6 := rfl
  constructor <;> refine PoolAction.outcome_text_of_found ?_ <;>
    simp only [htexts, Std.HashMap.getElem?_insertIfNew] <;> simp [signatureKind]

theorem outcome_confineField_twiceSigned (settled : Std.HashSet ConstantIndex) :
    outcome (((exampleResolver true).confineField twiceSignedField).run ⟨signedPool, settled⟩) .none =
      (.ok (resignedField, ⟨resignedPool, settled⟩), .none) := by
  have hheader : twiceSignedField.fieldHeader signedPool =
      .ok ⟨.ofBits 0, "x", "Ljava/util/Map;", some "Ljava/util/Map;"⟩ := by with_unfolding_all rfl
  have htext : outcome ((newText 4 "Ljava/util/Map;" "Lsandboxed/java/util/Map;").run ⟨signedPool, settled⟩)
      .none = (.ok (6, ⟨resignedPool, settled⟩), .none) := by
    rw [newText, if_neg (by decide), outcome_run_onPool]
    simp only [outcome_text_signedPool]
  have hsignature : resignedPool.textAt 5 = .ok signatureKind.name := by with_unfolding_all rfl
  have hset : outcome ((setSignature twiceSignedField.attributes (some "Ljava/util/Map;")
      (some "Lsandboxed/java/util/Map;")).run ⟨resignedPool, settled⟩) .none =
        (.ok ([copiedSignature, mapSignature], ⟨resignedPool, settled⟩), .none) :=
    Resolver.outcome_setSignature_head hsignature (by decide) outcome_text_resignedPool.1
      outcome_text_resignedPool.2
  have hfield : outcome (((exampleResolver true).confineField twiceSignedField).run ⟨signedPool, settled⟩) .none =
      (.ok (⟨(exampleResolver true).keptFieldFlags (.ofBits 0), 3, 6, [copiedSignature, mapSignature]⟩,
        ⟨resignedPool, settled⟩), .none) :=
    Resolver.outcome_confineField_of ⟨.ofBits 0, "x", "Ljava/util/Map;", some "Ljava/util/Map;"⟩ hheader
      (outcome_resolveDescriptor_example true) (outcome_resolveFieldSignature_map .none) htext hset
  rw [hfield]
  rfl

theorem outcome_confine_twiceSigned :
    outcome ((exampleResolver true).confine twiceSignedClass) .none = (.ok resignedClass, .none) := by
  have hfields : outcome ((twiceSignedClass.fields.mapM (exampleResolver true).confineField).run
      ⟨signedPool, Std.HashSet.insert ∅ 2⟩) .none =
        (.ok ([resignedField], ⟨resignedPool, Std.HashSet.insert ∅ 2⟩), .none) := by
    simp only [show twiceSignedClass.fields = [twiceSignedField] from rfl, List.mapM_cons, List.mapM_nil,
      outcome_run_bind, outcome_confineField_twiceSigned, outcome_run_pure]
  have hthis : twiceSignedClass.thisName = .ok "team1/A" := by with_unfolding_all rfl
  exact Resolver.outcome_confine_plain ⟨rfl, rfl, rfl, rfl⟩ hthis
    (Resolver.verdict_of_kept (by decide) (by decide)) hfields (by decide)

end Example

/-- The second signature of a field is still the one from before, which no signature of the field resolves to. -/
theorem confine_keepsSecondSignature :
    ClassFile.parse twiceSignedBytes = .ok twiceSignedClass ∧
      outcome ((exampleResolver true).confine twiceSignedClass) .none = (.ok resignedClass, .none) ∧
      resignedClass.fields = [resignedField] ∧ mapSignature ∈ resignedField.attributes ∧
      mapSignature.HoldsSignature resignedClass.pool "Ljava/util/Map;" ∧
      ∀ item ∈ twiceSignedField.attributes, ∀ signature, item.HoldsSignature twiceSignedClass.pool signature →
        ∀ findings, (outcome ((exampleResolver true).resolveFieldSignature (some signature)) findings).1 ≠
          .ok (some "Ljava/util/Map;") := by
  refine ⟨parse_twiceSignedBytes, outcome_confine_twiceSigned, rfl, by simp [resignedField],
    ⟨4, by with_unfolding_all rfl, by with_unfolding_all rfl⟩, ?_⟩
  rintro item hmem signature ⟨index, hdecode, htext⟩ findings
  obtain rfl : item = mapSignature := by simpa [twiceSignedField] using hmem
  have hindex : mapSignature.decodeAs signatureKind signedPool = .ok (some 4) := by with_unfolding_all rfl
  obtain rfl : 4 = index := Option.some.inj (Except.ok.inj (hindex.symm.trans hdecode))
  have hcontent : signedPool.textAt 4 = .ok "Ljava/util/Map;" := by with_unfolding_all rfl
  obtain rfl : "Ljava/util/Map;" = signature := Except.ok.inj (hcontent.symm.trans htext)
  rw [outcome_resolveFieldSignature_map]
  simp

/-- Of the two signatures of the field, the first one is resolved and the second one came after it. -/
theorem confine_resolvesSignatures_map :
    ClassFile.parse twiceSignedBytes = .ok twiceSignedClass ∧
      outcome ((exampleResolver true).confine twiceSignedClass) .none = (.ok resignedClass, .none) ∧
      SignaturesResolved (exampleResolver true) Resolver.resolveFieldSignature signedPool resignedPool
        [mapSignature, mapSignature] [copiedSignature, mapSignature] := by
  obtain ⟨-, hfields, -⟩ := confine_resolvesSignatures parse_twiceSignedBytes outcome_confine_twiceSigned
  cases hfields with
  | cons hfield _ => exact ⟨parse_twiceSignedBytes, outcome_confine_twiceSigned, hfield⟩

end ClassSandbox
