import ClassSandbox.Proofs.Confinement.Headers
import ClassSandbox.Proofs.Confinement.Sweep

/-!
# The parts of a class

While the header, the fields and the methods are confined, the pool stays `Underway`: the classes that are
settled have turned into their results, and all other constants are as they were. Texts stay what they are, so
a descriptor that is read on the way is the original one. Each part advances the pool in this sense
(`gives_confineHeader`, `gives_confineField`, `gives_confineMethod`).
-/

namespace ClassSandbox.Confinement

open ConstantPool

variable {r : Resolver} {original : ConstantPool} {editor later last : PoolEditor}

/-- The settled classes are mediated, and the other constants untouched. -/
structure Underway (r : Resolver) (original : ConstantPool) (editor : PoolEditor) : Prop where
  sound : editor.pool.Sound
  settled : ∀ index ∈ editor.settled, ∃ name', editor.pool.constantAt index = .ok (.classRef name') ∧
    ∀ constant, original.constantAt index = .ok constant →
      ∃ name, constant = .classRef name ∧ Turns r Resolver.resolveClass original editor.pool name name'
  pending : ∀ index constant, index ∉ editor.settled → original.constantAt index = .ok constant →
    editor.pool.constantAt index = .ok constant

/-- The pool stays underway, with more classes settled and more texts. -/
structure Advances (r : Resolver) (original : ConstantPool) (editor later : PoolEditor) : Prop where
  underway : Underway r original later
  settled : ∀ index ∈ editor.settled, index ∈ later.settled
  texts : editor.pool.KeepsTexts later.pool

theorem underway_start (h : original.Sound) : Underway r original ⟨original, ∅⟩ where
  sound := h
  settled _ hmem := absurd hmem Std.HashSet.not_mem_empty
  pending _ _ _ hc := hc

theorem Advances.refl (h : Underway r original editor) : Advances r original editor editor :=
  ⟨h, fun _ hmem => hmem, .refl _⟩

theorem Advances.trans (h : Advances r original editor later) (h' : Advances r original later last) :
    Advances r original editor last :=
  ⟨h'.underway, fun index hmem => h'.settled index (h.settled index hmem), h.texts.trans h'.texts⟩

theorem progress_advances (r : Resolver) (original : ConstantPool) :
    Progress (Underway r original) (Advances r original) :=
  ⟨fun h => .refl h, .trans, fun _ h => h.underway⟩

namespace Underway

variable (h : Underway r original editor)

include h

/-- Only classes are ever settled. -/
theorem keepsTexts : original.KeepsTexts editor.pool := by
  intro index text htext
  rw [textAt_eq_ok_iff] at htext ⊢
  by_cases hmem : index ∈ editor.settled
  · obtain ⟨_, -, hclass⟩ := h.settled index hmem
    obtain ⟨_, heq, -⟩ := hclass _ htext
    cases heq
  · exact h.pending index _ hmem htext

theorem exists_constantAt {index : ConstantIndex} {constant : Constant}
    (hc : original.constantAt index = .ok constant) :
    ∃ current, editor.pool.constantAt index = .ok current := by
  by_cases hmem : index ∈ editor.settled
  · obtain ⟨name, hat, -⟩ := h.settled index hmem
    exact ⟨_, hat⟩
  · exact ⟨constant, h.pending index constant hmem hc⟩

theorem classNameAt {index : ConstantIndex} {name : String} (hpending : index ∉ editor.settled)
    (hname : original.classNameAt index = .ok name) : editor.pool.classNameAt index = .ok name := by
  obtain ⟨text, hclass, htext⟩ := classNameAt_eq_ok_iff.1 hname
  exact classNameAt_eq_ok_iff.2 ⟨text, h.pending index _ hpending hclass, h.keepsTexts _ _ htext⟩

theorem advances_of_extends (hextends : Extends editor later) : Advances r original editor later where
  underway :=
    { sound := hextends.sound
      settled := fun index hmem => by
        rw [hextends.settled] at hmem
        obtain ⟨name', hat, hclass⟩ := h.settled index hmem
        refine ⟨name', hextends.grows _ _ hat, fun constant hc => ?_⟩
        obtain ⟨name, heq, hturns⟩ := hclass constant hc
        exact ⟨name, heq, hturns.mono (.refl _) hextends.grows.keepsTexts⟩
      pending := fun index constant hmem hc => by
        rw [hextends.settled] at hmem
        exact hextends.grows _ _ (h.pending index constant hmem hc) }
  settled index hmem := hextends.settled ▸ hmem
  texts := hextends.grows.keepsTexts

end Underway

/-! ## Classes -/

/-- A name fits a class, unless the class is settled. -/
def Assigned (r : Resolver) (original : ConstantPool) (editor : PoolEditor) (index : ConstantIndex)
    (name : String) : Prop :=
  index ∉ editor.settled →
    ∀ old, original.classNameAt index = .ok old → r.Resolves Resolver.resolveClass old name

theorem Assigned.advances {index : ConstantIndex} {name : String} (h : Assigned r original editor index name)
    (hadvances : Advances r original editor later) : Assigned r original later index name :=
  fun hpending => h fun hmem => hpending (hadvances.settled index hmem)

/-- The result of a name that is read from the pool on the way fits the class. -/
theorem assigned_of_read (h : Underway r original editor) {index : ConstantIndex} {old new : String}
    (hread : editor.pool.classNameAt index = .ok old) (hresolved : MayGive (r.resolveClass old) new) :
    Assigned r original editor index new := by
  intro hpending name hname
  obtain rfl : old = name := Except.ok.inj (hread.symm.trans (h.classNameAt hpending hname))
  exact Resolver.resolves_of_mayGive hresolved fun silenced => (r.results_matches silenced).resolveClass old

theorem assigned_of_readAll (h : Underway r original editor) {indices : List ConstantIndex}
    {names resolved : List String} (hread : indices.mapM editor.pool.classNameAt = .ok names)
    (hresolved : MayGive (names.mapM r.resolveClass) resolved) :
    ∀ entry ∈ indices.zip resolved, Assigned r original editor entry.1 entry.2 := by
  intro entry hmem
  obtain ⟨old, hold, hnew⟩ := exists_of_mem_zip_of_mapM hread hresolved entry hmem
  exact assigned_of_read h hold hnew

theorem advances_of_setClass (h : Underway r original editor) {index : ConstantIndex} {name : String}
    (hname : Assigned r original editor index name) {u : Unit}
    (hrun : Gives (setClass index name) editor u later) : Advances r original editor later := by
  rcases gives_setClass h.sound hrun with ⟨-, rfl⟩ |
    ⟨hpending, hsettled, hrepoints, ⟨old, hold⟩, found, hat, hfound⟩
  · exact .refl h
  · have hmem_iff : ∀ other, other ∈ later.settled ↔ index = other ∨ other ∈ editor.settled := fun other => by
      rw [hsettled, Std.HashSet.mem_insert, beq_iff_eq]
    refine ⟨⟨hrepoints.sound, fun other hmem => ?_, fun other constant hmem hc => ?_⟩,
      fun other hmem => (hmem_iff other).2 (.inr hmem), hrepoints.texts⟩
    · by_cases heq : index = other
      · subst heq
        refine ⟨found, hat, fun constant hc => ?_⟩
        have hsame := h.pending index constant hpending hc
        obtain rfl : constant = .classRef old := Except.ok.inj (hsame.symm.trans hold)
        refine ⟨old, rfl, fun text htext => ⟨name, ?_, hfound⟩⟩
        exact hname hpending text (classNameAt_eq_ok_iff.2 ⟨old, hc, htext⟩)
      · obtain ⟨name', hthere, hclass⟩ := h.settled other (((hmem_iff other).1 hmem).resolve_left heq)
        refine ⟨name', hrepoints.others _ _ (Ne.symm heq) hthere, fun constant hc => ?_⟩
        obtain ⟨name, hconstant, hturns⟩ := hclass constant hc
        exact ⟨name, hconstant, hturns.mono (.refl _) hrepoints.texts⟩
    · rw [hmem_iff, not_or] at hmem
      exact hrepoints.others _ _ (Ne.symm hmem.1) (h.pending other constant hmem.2 hc)

theorem advances_of_setClasses (h : Underway r original editor) {assignments : List (ConstantIndex × String)}
    (hnames : ∀ entry ∈ assignments, Assigned r original editor entry.1 entry.2) {u : Unit}
    (hrun : Gives (assignments.forM fun (index, name) => setClass index name) editor u later) :
    Advances r original editor later := by
  have hprogress : Progress (fun editor => Underway r original editor ∧
      ∀ entry ∈ assignments, Assigned r original editor entry.1 entry.2) (Advances r original) :=
    (progress_advances r original).and fun _ hnames hadvances entry hmem =>
      (hnames entry hmem).advances hadvances
  exact hprogress.forM (fun entry hmem _ _ _ hready hstep =>
    advances_of_setClass hready.1 (hready.2 entry hmem) hstep) ⟨h, hnames⟩ hrun

/-! ## Header -/

theorem gives_confineHeader {file : ClassFile} (h : file.pool.Sound) {attributes : List Attribute}
    (hrun : Gives (r.confineHeader file) ⟨file.pool, ∅⟩ attributes later) :
    Advances r file.pool ⟨file.pool, ∅⟩ later := by
  have hstart : Underway r file.pool ⟨file.pool, ∅⟩ := underway_start h
  obtain ⟨header, resolved, middle, hheader, hresolved, hclasses, hrun⟩ := Resolver.exists_of_confineHeader hrun
  have hadvances := advances_of_setClasses hstart (fun entry hmem => by
    obtain ⟨old, hold, hnew⟩ := Resolver.exists_of_mem_assignments hheader hresolved entry hmem
    exact assigned_of_read hstart hold hnew) hclasses
  exact hadvances.trans (hadvances.underway.advances_of_extends (gives_setSignature hadvances.underway.sound hrun))

/-! ## Fields and methods -/

/-- The name of a member is kept, and its descriptor turns into the result of an operation. -/
structure MemberMediated (r : Resolver) (operation : Resolver → String → Resolution String)
    (original confined : ConstantPool) {kind : Declared} (before after : Member kind) : Prop where
  name : after.name = before.name
  descriptor : Turns r operation original confined before.descriptor after.descriptor

theorem MemberMediated.mono {operation : Resolver → String → Resolution String}
    {confined pool : ConstantPool} {kind : Declared} {before after : Member kind}
    (h : MemberMediated r operation original confined before after)
    (hafter : confined.KeepsTexts pool) : MemberMediated r operation original pool before after :=
  ⟨h.name, h.descriptor.mono (.refl _) hafter⟩

/-- A descriptor that is read on the way is the original one, if that is a text. -/
theorem turns_of_newText (h : Underway r original editor) {operation : Resolver → String → Resolution String}
    {index found : ConstantIndex} {old new : String} (hread : editor.pool.textAt index = .ok old)
    (hresolves : r.Resolves operation old new) (hrun : Gives (newText index old new) editor found later) :
    Extends editor later ∧ Turns r operation original later.pool index found := by
  obtain ⟨hextends, hfound⟩ := gives_newText h.sound hread hrun
  refine ⟨hextends, fun text htext => ⟨new, ?_, hfound⟩⟩
  obtain rfl : old = text := Except.ok.inj (hread.symm.trans (h.keepsTexts _ _ htext))
  exact hresolves

theorem gives_confineField (h : Underway r original editor) {field confined : Field}
    (hrun : Gives (r.confineField field) editor confined later) :
    Advances r original editor later ∧
      MemberMediated r Resolver.resolveDescriptor original later.pool field confined := by
  obtain ⟨header, resolved, middle, hheader, hresolved, htext, hsignature, hname, -⟩ :=
    Resolver.exists_of_confineField hrun
  obtain ⟨-, -, hdescriptor, -⟩ := Member.fieldHeader_eq_ok hheader
  obtain ⟨-, -, hdescriptor', -⟩ := Resolver.mayGive_resolveField hresolved
  have hresolves := Resolver.resolves_of_mayGive hdescriptor' fun silenced =>
    (r.results_matches silenced).resolveDescriptor header.descriptor
  obtain ⟨hextends, hturns⟩ := turns_of_newText h hdescriptor hresolves htext
  have hfinal := gives_setSignature hextends.sound hsignature
  exact ⟨h.advances_of_extends (hextends.trans hfinal), hname, hturns.mono (.refl _) hfinal.grows.keepsTexts⟩

theorem gives_confineMethod (h : Underway r original editor) {method confined : Method}
    (hrun : Gives (r.confineMethod method) editor confined later) :
    Advances r original editor later ∧
      MemberMediated r Resolver.resolveMethodDescriptor original later.pool method confined := by
  obtain ⟨exceptions, header, resolved, middle, next, -, hheader, hresolved, htext, hsignature, hclasses, hname, -⟩ :=
    Resolver.exists_of_confineMethod hrun
  obtain ⟨-, -, hdescriptor, -, hnames⟩ := Member.methodHeader_eq_ok hheader
  obtain ⟨-, -, hdescriptor', -, hnames'⟩ := Resolver.mayGive_resolveMethod hresolved
  have hresolves := Resolver.resolves_of_mayGive hdescriptor' fun silenced =>
    (r.results_matches silenced).resolveMethodDescriptor header.descriptor
  obtain ⟨hextends, hturns⟩ := turns_of_newText h hdescriptor hresolves htext
  have hsigned := gives_setSignature hextends.sound hsignature
  have hadvances := h.advances_of_extends (hextends.trans hsigned)
  have hassigned := assigned_of_readAll h hnames hnames'
  have hfinal := advances_of_setClasses hadvances.underway
    (fun entry hmem => (hassigned entry hmem).advances hadvances) hclasses
  exact ⟨hadvances.trans hfinal, hname, hturns.mono (.refl _) (hsigned.grows.keepsTexts.trans hfinal.texts)⟩

theorem gives_mapM_member {operation : Resolver → String → Resolution String} {kind : Declared}
    {confineMember : Member kind → Confinement (Member kind)}
    (hstep : ∀ {editor later : PoolEditor} {before after : Member kind}, Underway r original editor →
      Gives (confineMember before) editor after later →
        Advances r original editor later ∧ MemberMediated r operation original later.pool before after)
    (h : Underway r original editor) {members confined : List (Member kind)}
    (hrun : Gives (members.mapM confineMember) editor confined later) :
    Advances r original editor later ∧
      List.Forall₂ (MemberMediated r operation original later.pool) members confined :=
  (progress_advances r original).mapM (fun hmoves hmember => hmember.mono hmoves.texts) hstep h hrun

end ClassSandbox.Confinement
