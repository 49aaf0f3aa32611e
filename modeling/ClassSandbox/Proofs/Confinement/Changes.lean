import ClassSandbox.Proofs.Confinement.Headers
import ClassSandbox.Proofs.Confinement.Steps
import ClassSandbox.Proofs.Confinement.Sweep

/-!
# What confinement changes

Each part of a confinement takes steps of the pool (`Proceeds`), and until the sweep it leaves the constants
alone that it does not settle. Of the attributes it changes the first signature at most (`SignatureChange`), and
of a field or a method also the descriptor and one flag (`MemberChange`).
-/

namespace ClassSandbox

open ConstantPool

/-! ## Attributes -/

/-- An attribute is the first that the pool names a signature. -/
structure FirstSignature (pool : ConstantPool) (front : List Attribute) (item : Attribute) : Prop where
  here : pool.textAt item.name = .ok signatureKind.name
  notBefore : ∀ other ∈ front, pool.textAt other.name ≠ .ok signatureKind.name

/-- At most the first signature is another one, or gone. -/
inductive SignatureChange (pool : ConstantPool) : List Attribute → List Attribute → Prop where
  | same (items : List Attribute) : SignatureChange pool items items
  | replaced {front back : List Attribute} {old new : Attribute} (first : FirstSignature pool front old)
      (info : new.info.length = 2) : SignatureChange pool (front ++ old :: back) (front ++ new :: back)
  | dropped {front back : List Attribute} {old : Attribute} (first : FirstSignature pool front old) :
      SignatureChange pool (front ++ old :: back) (front ++ back)

/-- A signature in a later pool is one in the first. -/
theorem FirstSignature.original {pool later : ConstantPool} {front : List Attribute} {item : Attribute}
    (hkeeps : pool.KeepsConstants later) (h : FirstSignature later front item) :
    FirstSignature pool front item where
  here := hkeeps.textAt_of_not_marked not_marked_signature h.here
  notBefore other hmem hname := h.notBefore other hmem (hkeeps.textAt hname)

theorem SignatureChange.original {pool later : ConstantPool} {items items' : List Attribute}
    (hkeeps : pool.KeepsConstants later) (h : SignatureChange later items items') :
    SignatureChange pool items items' := by
  cases h with
  | same => exact .same items
  | replaced first info => exact .replaced (first.original hkeeps) info
  | dropped first => exact .dropped (first.original hkeeps)

namespace Confinement

theorem signaturePosition?_eq_some {pool : ConstantPool} {start position : Nat} {items : List Attribute}
    (h : signaturePosition? pool start items = .ok (some position)) :
    ∃ front item back, items = front ++ item :: back ∧ position = start + front.length ∧
      FirstSignature pool front item := by
  induction items generalizing start with
  | nil => cases h
  | cons item items ih =>
    obtain ⟨name, hname, h⟩ := except_bind_eq_ok_iff.1 h
    split at h
    · rename_i hsignature
      cases h
      exact ⟨[], item, items, rfl, rfl, hname.trans (congrArg _ hsignature), fun _ hmem => (nomatch hmem)⟩
    · rename_i hother
      obtain ⟨front, found, back, rfl, rfl, hfirst⟩ := ih h
      refine ⟨item :: front, found, back, rfl, by rw [List.length_cons]; omega, hfirst.here, ?_⟩
      rw [List.forall_mem_cons]
      exact ⟨fun heq => hother (Except.ok.inj (hname.symm.trans heq)), hfirst.notBefore⟩

/-! ## Steps -/

variable {r : Resolver} {editor later last : PoolEditor} {index : ConstantIndex}

/-- The pool took steps, and constants that are not settled did not change. -/
structure Proceeds (editor later : PoolEditor) : Prop where
  steps : Steps editor.pool later.pool
  settled : ∀ index ∈ editor.settled, index ∈ later.settled
  pending : ∀ index constant, index ∉ later.settled → editor.pool.constantAt index = .ok constant →
    later.pool.constantAt index = .ok constant

theorem Proceeds.refl (editor : PoolEditor) : Proceeds editor editor := ⟨.refl, fun _ h => h, fun _ _ _ h => h⟩

theorem Proceeds.trans (h : Proceeds editor later) (h' : Proceeds later last) : Proceeds editor last where
  steps := h.steps.trans h'.steps
  settled index hmem := h'.settled index (h.settled index hmem)
  pending index constant hmem hc :=
    h'.pending index constant hmem (h.pending index constant (fun hbefore => hmem (h'.settled index hbefore)) hc)

theorem Proceeds.regular (h : Proceeds editor later) (hregular : editor.pool.Regular) : later.pool.Regular :=
  regular_of_steps h.steps hregular

theorem Proceeds.keepsConstants (h : Proceeds editor later) (hregular : editor.pool.Regular) :
    editor.pool.KeepsConstants later.pool := keepsConstants_of_steps h.steps hregular

theorem progress_proceeds : Progress (fun editor => editor.pool.Regular) Proceeds :=
  ⟨fun _ => .refl _, .trans, fun h hproceeds => hproceeds.regular h⟩

theorem steps_of_text {pool after : ConstantPool} {content : String} (hmarked : Marked content)
    (hrun : outcome (PoolAction.text content) pool = (.ok index, after)) : Steps pool after := by
  rcases PoolAction.text_eq_ok hrun with ⟨-, rfl⟩ | happend
  · exact .refl
  · rw [PoolAction.outcome_append] at happend
    split at happend
    · cases happend
    · rename_i hfault
      cases happend
      exact .single (.text hmarked hfault)

theorem proceeds_of_text (h : editor.pool.Regular) {content : String} (hmarked : Marked content)
    (hrun : Gives (onPool (PoolAction.text content)) editor index later) : Proceeds editor later := by
  have hextends := (gives_text h.sound hrun).1
  exact ⟨steps_of_text hmarked (gives_onPool hrun).1, fun _ hmem => hextends.settled ▸ hmem,
    fun _ _ _ hc => hextends.grows _ _ hc⟩

theorem proceeds_of_newText (h : editor.pool.Regular) {old new : String} {found : ConstantIndex}
    (hnew : new = old ∨ Marked new) (hrun : Gives (newText index old new) editor found later) :
    Proceeds editor later := by
  unfold newText at hrun
  split at hrun
  · obtain ⟨-, rfl⟩ := gives_pure hrun
    exact .refl editor
  · rename_i hne
    exact proceeds_of_text h (hnew.resolve_left (Ne.symm hne)) hrun

/-- A signature is written without a change of the pool if the name of such attributes is there. -/
theorem gives_writeSignature_of_indexed (h : editor.pool.Indexed) {name contents : ConstantIndex}
    {item : Attribute} (hname : editor.pool.textAt name = .ok signatureKind.name)
    (hrun : Gives (onPool (signatureKind.write contents)) editor item later) :
    later = editor ∧ item.info.length = 2 := by
  obtain ⟨hpool, hsettled⟩ := gives_onPool hrun
  obtain ⟨found, middle, htext, hwrite⟩ := outcome_bind_eq_ok_iff.1 hpool
  have hmem := h name _ hname
  have hsame : middle = editor.pool := by
    rw [PoolAction.text, outcome_bind, outcome_get] at htext
    simp only [Std.HashMap.getElem?_eq_some_getElem hmem] at htext
    cases htext
    rfl
  cases hwrite
  refine ⟨?_, rfl⟩
  cases later
  cases editor
  cases hsettled
  cases hsame
  rfl

theorem gives_setSignature_of_regular (h : editor.pool.Regular) {items items' : List Attribute}
    {old new : Option String} (hnew : ∀ signature, new = some signature → Marked signature)
    (hrun : Gives (setSignature items old new) editor items' later) :
    Proceeds editor later ∧ SignatureChange editor.pool items items' := by
  unfold setSignature at hrun
  split at hrun
  · obtain ⟨rfl, rfl⟩ := gives_pure hrun
    exact ⟨.refl editor, .same items⟩
  · obtain ⟨position?, _, hread, hrun⟩ := gives_bind hrun
    obtain ⟨hposition, rfl⟩ := gives_fromPool hread
    split at hrun
    · obtain ⟨rfl, rfl⟩ := gives_pure hrun
      exact ⟨.refl editor, .same items⟩
    · obtain ⟨front, item, back, rfl, rfl, hfirst⟩ := signaturePosition?_eq_some hposition
      rw [Nat.zero_add] at hrun
      split at hrun
      · obtain ⟨rfl, rfl⟩ := gives_pure hrun
        rw [List.eraseIdx_append_of_length_le (Nat.le_refl _), Nat.sub_self]
        exact ⟨.refl editor, .dropped hfirst⟩
      · obtain ⟨text, middle, htext, hrun⟩ := gives_bind hrun
        obtain ⟨item', _, hwrite, hrun⟩ := gives_bind hrun
        obtain ⟨rfl, rfl⟩ := gives_pure hrun
        have hproceeds := proceeds_of_text h (hnew _ rfl) htext
        -- The attribute in whose place the new one comes already has the name that this one needs.
        have hname := (hproceeds.keepsConstants h).textAt hfirst.here
        obtain ⟨rfl, hinfo⟩ := gives_writeSignature_of_indexed (hproceeds.regular h).indexed hname hwrite
        rw [List.set_append_right _ _ (Nat.le_refl _), Nat.sub_self]
        exact ⟨hproceeds, .replaced hfirst hinfo⟩

/-! ## Classes -/

theorem steps_of_repoint (h : editor.pool.Regular) {constant : Constant} {build : ConstantIndex → Constant}
    (hold : editor.pool.constantAt index = .ok constant) (hbuild : ∀ found, Repointed constant (build found))
    {text : String} (hmarked : Marked text) {u : Unit}
    (hrun : Gives (do let found ← onPool (PoolAction.text text)
                      onPool (PoolAction.replace index (build found))) editor u later) :
    Steps editor.pool later.pool := by
  obtain ⟨found, middle, htext, hrun⟩ := gives_bind hrun
  have hthere := (gives_text h.sound htext).1.grows index constant hold
  obtain ⟨hfault, hlater⟩ := PoolAction.replace_eq_ok (gives_onPool hrun).1
  rw [hlater]
  exact (proceeds_of_text h hmarked htext).steps.tail (.repoint hthere (hbuild found) hfault)

/-- A name was read from a class, or it is what the name there turned into, unless the class is settled. -/
def Offered (editor : PoolEditor) (index : ConstantIndex) (name : String) : Prop :=
  index ∉ editor.settled → ∃ old, editor.pool.classNameAt index = .ok old ∧ (name = old ∨ Marked name)

theorem offered_of_read {old new : String} (hread : editor.pool.classNameAt index = .ok old)
    (hresolved : MayGive (r.resolveClass old) new) : Offered editor index new :=
  fun _ => ⟨old, hread, Resolver.eq_or_marked_of_resolveClass hresolved⟩

theorem Offered.proceeds {name : String} (h : Offered editor index name) (hregular : editor.pool.Regular)
    (hproceeds : Proceeds editor later) : Offered later index name := by
  intro hpending
  obtain ⟨old, hread, hname⟩ := h fun hmem => hpending (hproceeds.settled index hmem)
  obtain ⟨text, hclass, htext⟩ := classNameAt_eq_ok_iff.1 hread
  have hkept := (hproceeds.keepsConstants hregular).textAt htext
  exact ⟨old, classNameAt_eq_ok_iff.2 ⟨text, hproceeds.pending index _ hpending hclass, hkept⟩, hname⟩

theorem steps_of_setClass (h : editor.pool.Regular) {name : String} (hname : Offered editor index name)
    {u : Unit} (hrun : Gives (setClass index name) editor u later) : Steps editor.pool later.pool := by
  obtain ⟨_, _, hget, hrun⟩ := gives_bind hrun
  obtain ⟨rfl, rfl⟩ := gives_get hget
  split at hrun
  · obtain ⟨-, rfl⟩ := gives_pure hrun
    exact .refl
  · rename_i hpending
    obtain ⟨old, hread, hold⟩ := hname hpending
    obtain ⟨text, hclass, -⟩ := classNameAt_eq_ok_iff.1 hread
    obtain ⟨_, marking, hmark, hrun⟩ := gives_bind hrun
    have hsame : marking.pool = editor.pool := by rw [← gives_modify hmark]
    rw [← hsame] at h hread hclass ⊢
    obtain ⟨current, _, hcurrent, hrun⟩ := gives_bind hrun
    obtain ⟨hname', rfl⟩ := gives_fromPool hcurrent
    obtain rfl : old = current := Except.ok.inj (hread.symm.trans hname')
    split at hrun
    · rename_i hne
      exact steps_of_repoint h hclass (fun _ => .classRef _ _) (hold.resolve_left (Ne.symm hne)) hrun
    · obtain ⟨-, rfl⟩ := gives_pure hrun
      exact .refl

theorem proceeds_of_setClass (h : editor.pool.Regular) {name : String} (hname : Offered editor index name)
    {u : Unit} (hrun : Gives (setClass index name) editor u later) : Proceeds editor later := by
  have hsteps := steps_of_setClass h hname hrun
  rcases gives_setClass h.sound hrun with ⟨-, rfl⟩ | ⟨-, hsettled, hrepoints, -⟩
  · exact .refl later
  · have hmem_iff : ∀ other, other ∈ later.settled ↔ index = other ∨ other ∈ editor.settled := fun other => by
      rw [hsettled, Std.HashSet.mem_insert, beq_iff_eq]
    refine ⟨hsteps, fun other hmem => (hmem_iff other).2 (.inr hmem), fun other constant hmem hc => ?_⟩
    rw [hmem_iff, not_or] at hmem
    exact hrepoints.others _ _ (Ne.symm hmem.1) hc

theorem proceeds_of_setClasses (h : editor.pool.Regular) {assignments : List (ConstantIndex × String)}
    (hnames : ∀ entry ∈ assignments, Offered editor entry.1 entry.2) {u : Unit}
    (hrun : Gives (assignments.forM fun (index, name) => setClass index name) editor u later) :
    Proceeds editor later := by
  have hprogress : Progress (fun editor => editor.pool.Regular ∧
      ∀ entry ∈ assignments, Offered editor entry.1 entry.2) Proceeds :=
    progress_proceeds.and fun hregular hnames hproceeds entry hmem =>
      (hnames entry hmem).proceeds hregular hproceeds
  exact hprogress.forM (fun entry hmem _ _ _ hready hstep =>
    proceeds_of_setClass hready.1 (hready.2 entry hmem) hstep) ⟨h, hnames⟩ hrun

/-! ## Header, fields and methods -/

theorem proceeds_of_confineHeader {file : ClassFile} (h : file.pool.Regular) {attributes : List Attribute}
    (hrun : Gives (r.confineHeader file) ⟨file.pool, ∅⟩ attributes later) :
    Proceeds ⟨file.pool, ∅⟩ later ∧ SignatureChange file.pool file.attributes attributes := by
  obtain ⟨header, resolved, middle, hheader, hresolved, hclasses, hrun⟩ := Resolver.exists_of_confineHeader hrun
  obtain ⟨-, -, -, hsignature⟩ := Resolver.mayGive_resolveClassHeader hresolved
  have hfirst : Proceeds ⟨file.pool, ∅⟩ middle := proceeds_of_setClasses h (fun entry hmem => by
    obtain ⟨old, hold, hnew⟩ := Resolver.exists_of_mem_assignments hheader hresolved entry hmem
    exact offered_of_read hold hnew) hclasses
  obtain ⟨hlast, hchange⟩ := gives_setSignature_of_regular (hfirst.regular h)
    (fun _ heq => Resolver.marked_of_resolveSignature (heq ▸ hsignature)) hrun
  exact ⟨hfirst.trans hlast, hchange.original (hfirst.keepsConstants h)⟩

/-- Nothing changes but the descriptor, one flag and the signature. -/
structure MemberChange (pool : ConstantPool) {kind : Declared} (flag : UInt16) (before after : Member kind) :
    Prop where
  name : after.name = before.name
  flags : after.flags.bits ||| flag = before.flags.bits ||| flag
  attributes : SignatureChange pool before.attributes after.attributes

theorem MemberChange.original {pool later : ConstantPool} {kind : Declared} {flag : UInt16}
    {before after : Member kind} (hkeeps : pool.KeepsConstants later) (h : MemberChange later flag before after) :
    MemberChange pool flag before after := ⟨h.name, h.flags, h.attributes.original hkeeps⟩

theorem proceeds_of_confineField (h : editor.pool.Regular) {field confined : Field}
    (hrun : Gives (r.confineField field) editor confined later) :
    Proceeds editor later ∧ MemberChange editor.pool volatileFlag field confined := by
  obtain ⟨header, resolved, middle, hheader, hresolved, htext, hset, hname, hflags⟩ :=
    Resolver.exists_of_confineField hrun
  obtain ⟨hold, -, -, -⟩ := Member.fieldHeader_eq_ok hheader
  obtain ⟨hnew, -, hdescriptor, hsignature⟩ := Resolver.mayGive_resolveField hresolved
  have hfirst := proceeds_of_newText h (Resolver.eq_or_marked_of_resolveDescriptor hdescriptor) htext
  obtain ⟨hlast, hchange⟩ := gives_setSignature_of_regular (hfirst.regular h)
    (fun _ heq => Resolver.marked_of_resolveFieldSignature (heq ▸ hsignature)) hset
  refine ⟨hfirst.trans hlast, hname, ?_, hchange.original (hfirst.keepsConstants h)⟩
  rw [hflags, hnew, hold]
  exact Resolver.keptFieldFlags_or field.flags

theorem proceeds_of_confineMethod (h : editor.pool.Regular) {method confined : Method}
    (hrun : Gives (r.confineMethod method) editor confined later) :
    Proceeds editor later ∧ MemberChange editor.pool synchronizedFlag method confined := by
  obtain ⟨exceptions, header, resolved, middle, next, -, hheader, hresolved, htext, hset, hclasses, hname, hflags⟩ :=
    Resolver.exists_of_confineMethod hrun
  obtain ⟨hold, -, -, -, hnames⟩ := Member.methodHeader_eq_ok hheader
  obtain ⟨hnew, -, hdescriptor, hsignature, hnames'⟩ := Resolver.mayGive_resolveMethod hresolved
  have hfirst := proceeds_of_newText h (Resolver.eq_or_marked_of_resolveMethodDescriptor hdescriptor) htext
  obtain ⟨hsecond, hchange⟩ := gives_setSignature_of_regular (hfirst.regular h)
    (fun _ heq => Resolver.marked_of_resolveSignature (heq ▸ hsignature)) hset
  have hproceeds := hfirst.trans hsecond
  have hlast := proceeds_of_setClasses (hproceeds.regular h) (fun entry hmem => by
    obtain ⟨old, hold, hnew⟩ := exists_of_mem_zip_of_mapM hnames hnames' entry hmem
    exact (offered_of_read hold hnew).proceeds h hproceeds) hclasses
  refine ⟨hproceeds.trans hlast, hname, ?_, hchange.original (hfirst.keepsConstants h)⟩
  rw [hflags, hnew, hold]
  exact method.flags.without_or synchronizedFlag

theorem proceeds_of_mapM {kind : Declared} {flag : UInt16}
    {confineMember : Member kind → Confinement (Member kind)}
    (hstep : ∀ {editor later : PoolEditor} {before after : Member kind}, editor.pool.Regular →
      Gives (confineMember before) editor after later →
        Proceeds editor later ∧ MemberChange editor.pool flag before after)
    (h : editor.pool.Regular) {members confined : List (Member kind)}
    (hrun : Gives (members.mapM confineMember) editor confined later) :
    Proceeds editor later ∧ List.Forall₂ (MemberChange editor.pool flag) members confined := by
  -- Each member is read from a later pool, and compared by what the first one says.
  have hprogress : Progress (fun middle => middle.pool.Regular ∧ Proceeds editor middle) Proceeds :=
    progress_proceeds.and fun _ hbefore hproceeds => hbefore.trans hproceeds
  exact hprogress.mapM (fun _ hchange => hchange) (fun hready hrun =>
    (hstep hready.1 hrun).imp_right fun hchange => hchange.original (hready.2.keepsConstants h))
    ⟨h, .refl editor⟩ hrun

/-! ## The sweep -/

theorem steps_of_confineText (h : editor.pool.Regular) {operation : Resolver → String → Resolution String}
    (hmarked : ∀ {old new}, MayGive (operation r old) new → new = old ∨ Marked new)
    {build : ConstantIndex → Constant} (hbuild : ∀ text found, Repointed (build text) (build found))
    {text : ConstantIndex} (hold : editor.pool.constantAt index = .ok (build text)) {u : Unit}
    (hrun : Gives (do let old ← fromPool fun pool => pool.textAt text
                      let new ← liftM (operation r old)
                      if old ≠ new then
                        let found ← onPool (PoolAction.text new)
                        onPool (PoolAction.replace index (build found))) editor u later) :
    Steps editor.pool later.pool := by
  obtain ⟨old, _, hread, hrun⟩ := gives_bind hrun
  obtain ⟨-, rfl⟩ := gives_fromPool hread
  obtain ⟨new, _, hlift, hrun⟩ := gives_bind hrun
  obtain ⟨rfl, hnew⟩ := gives_lift hlift
  split at hrun
  · rename_i hne
    exact steps_of_repoint h hold (hbuild text) ((hmarked hnew).resolve_left (Ne.symm hne)) hrun
  · obtain ⟨-, rfl⟩ := gives_pure hrun
    exact .refl

theorem steps_of_confineConstant (h : editor.pool.Regular) {constant : Constant}
    (hold : editor.pool.constantAt index = .ok constant) {u : Unit}
    (hrun : Gives (r.confineConstant index constant) editor u later) : Steps editor.pool later.pool := by
  unfold Resolver.confineConstant at hrun
  split at hrun
  · obtain ⟨_, _, hget, hrun⟩ := gives_bind hrun
    obtain ⟨rfl, rfl⟩ := gives_get hget
    split at hrun
    · obtain ⟨-, rfl⟩ := gives_pure hrun
      exact .refl
    · exact steps_of_confineText h Resolver.eq_or_marked_of_resolveClass .classRef hold hrun
  · rename_i name descriptor
    exact steps_of_confineText h Resolver.eq_or_marked_of_resolveAnyDescriptor (.nameAndType name) hold hrun
  · exact steps_of_confineText h Resolver.eq_or_marked_of_resolveMethodDescriptor .methodType hold hrun
  · obtain ⟨-, rfl⟩ := gives_pure hrun
    exact .refl

theorem steps_of_sweep {constants : List (Nat × Constant)}
    (hdistinct : (constants.map fun entry => UInt16.ofNat entry.1).Nodup) (h : editor.pool.Regular)
    (hold : ∀ entry ∈ constants, editor.pool.constantAt (UInt16.ofNat entry.1) = .ok entry.2) {u : Unit}
    (hrun : Gives (constants.forM fun (offset, constant) => r.confineConstant (UInt16.ofNat offset) constant)
      editor u later) : Steps editor.pool later.pool := by
  induction constants generalizing editor with
  | nil =>
    obtain ⟨-, rfl⟩ := gives_pure hrun
    exact .refl
  | cons entry rest ih =>
    obtain ⟨_, middle, hfirst, hrest⟩ := gives_bind hrun
    obtain ⟨hfresh, hdistinct⟩ := List.nodup_cons.1 hdistinct
    have hthere := hold entry List.mem_cons_self
    have hothers := (gives_confineConstant h.sound hthere hfirst).1.others
    have hsteps := steps_of_confineConstant h hthere hfirst
    refine hsteps.trans (ih hdistinct (regular_of_steps hsteps h) (fun other hmem => ?_) hrest)
    exact hothers _ _ (fun heq => hfresh (List.mem_map.2 ⟨other, hmem, heq⟩))
      (hold other (List.mem_cons_of_mem _ hmem))

end Confinement

end ClassSandbox
