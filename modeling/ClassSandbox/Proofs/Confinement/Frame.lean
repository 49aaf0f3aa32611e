import ClassSandbox.Proofs.ClassFile.RoundTrip
import ClassSandbox.Proofs.Confinement.Changes
import ClassSandbox.Proofs.Confinement.Mediation

/-!
# What confinement leaves alone

Confining a class touches nothing but what names classes, and two flags (`ClassChange`, `confine_changes`). What
comes out fits into a class file whatever has been appended, so it can be written and is read back
(`confine_writes`).
-/

namespace ClassSandbox

open ConstantPool Confinement
open Resolver (exampleResolver)

/-- What may be different in a confined class. -/
structure ClassChange (file confined : ClassFile) : Prop where
  version : confined.version = file.version
  flags : confined.flags = file.flags
  thisClass : confined.thisClass = file.thisClass
  superClass : confined.superClass = file.superClass
  interfaces : confined.interfaces = file.interfaces
  constants : file.pool.KeepsConstants confined.pool
  fields : List.Forall₂ (MemberChange file.pool volatileFlag) file.fields confined.fields
  methods : List.Forall₂ (MemberChange file.pool synchronizedFlag) file.methods confined.methods
  attributes : SignatureChange file.pool file.attributes confined.attributes

variable {r : Resolver} {file confined : ClassFile} {before after : Findings} {bytes : Bytes}

theorem classChange_of_confine (h : file.pool.Regular)
    (hrun : outcome (r.confine file) before = (.ok confined, after)) :
    ClassChange file confined ∧ confined.pool.Regular := by
  obtain ⟨headed, between, swept, later, hheader, hfields, hmethods, hsweep, hconfined⟩ :=
    Resolver.exists_of_confine hrun
  obtain ⟨hfirst, hattributes⟩ := proceeds_of_confineHeader h hheader
  obtain ⟨hsecond, hfields⟩ := proceeds_of_mapM (fun h hrun => proceeds_of_confineField h hrun)
    (hfirst.regular h) hfields
  have hbefore := hfirst.trans hsecond
  obtain ⟨hthird, hmethods⟩ := proceeds_of_mapM (fun h hrun => proceeds_of_confineMethod h hrun)
    (hbefore.regular h) hmethods
  have hparts := hbefore.trans hthird
  have hregular := hparts.regular h
  have hswept := steps_of_sweep (nodup_indices hregular.sound) hregular
    (fun entry hmem => constantAt_of_mem hregular.sound hmem) hsweep
  rw [hconfined]
  exact ⟨⟨rfl, rfl, rfl, rfl, rfl, keepsConstants_of_steps (hparts.steps.trans hswept) h,
    hfields.imp fun _ _ hfield => hfield.original (hfirst.keepsConstants h),
    hmethods.imp fun _ _ hmethod => hmethod.original (hbefore.keepsConstants h), hattributes⟩,
    regular_of_steps hswept hregular⟩

theorem ClassFile.regular_of_parse (h : ClassFile.parse bytes = .ok file) : file.pool.Regular := by
  obtain ⟨_, _, hpool⟩ := ClassFile.exists_pool_of_parse h
  exact ConstantPool.regular_of_decode hpool

/-- Confining a class that was read from bytes leaves all the rest of it alone. -/
theorem confine_changes (hparse : ClassFile.parse bytes = .ok file)
    (hrun : outcome (r.confine file) before = (.ok confined, after)) : ClassChange file confined :=
  (classChange_of_confine (ClassFile.regular_of_parse hparse) hrun).1

/-- A field gets a new type, and a reference to it points to a new text after the old constants. -/
theorem confine_changes_example :
    ClassFile.parse exampleBytes = .ok exampleClass ∧
    outcome ((exampleResolver true).confine exampleClass) .none = (.ok confinedClass, .none) ∧
    ClassChange exampleClass confinedClass :=
  ⟨parse_exampleBytes, outcome_confine_example true,
    confine_changes parse_exampleBytes (outcome_confine_example true)⟩

/-! ## Writing -/

theorem SignatureChange.length_le {pool : ConstantPool} {items items' : List Attribute}
    (h : SignatureChange pool items items') : items'.length ≤ items.length := by
  cases h <;> simp

theorem SignatureChange.infos {pool : ConstantPool} {items items' : List Attribute}
    (h : SignatureChange pool items items') (hinfos : ∀ item ∈ items, item.info.length < UInt32.size) :
    ∀ item ∈ items', item.info.length < UInt32.size := by
  cases h with
  | same => exact hinfos
  | @replaced front back old new _ info =>
    intro item hmem
    rcases List.mem_append.1 hmem with hfront | hmem
    · exact hinfos item (List.mem_append_left _ hfront)
    rcases List.mem_cons.1 hmem with rfl | hback
    · rw [info]
      decide
    · exact hinfos item (List.mem_append_right _ (List.mem_cons_of_mem _ hback))
  | dropped =>
    intro item hmem
    refine hinfos item (List.mem_append.2 ((List.mem_append.1 hmem).imp_right (List.mem_cons_of_mem _)))

theorem exists_of_mem_of_forall₂ {α β : Type} {R : α → β → Prop} {as : List α} {bs : List β}
    (h : List.Forall₂ R as bs) : ∀ b ∈ bs, ∃ a ∈ as, R a b := by
  induction h with
  | nil => exact fun _ hmem => (nomatch hmem)
  | cons hfirst _ ih =>
    rw [List.forall_mem_cons]
    refine ⟨⟨_, List.mem_cons_self, hfirst⟩, fun b hmem => ?_⟩
    obtain ⟨a, ha, hab⟩ := ih b hmem
    exact ⟨a, List.mem_cons_of_mem _ ha, hab⟩

section Members

variable {kind : Declared} {pool : ConstantPool} {flag : UInt16} {members members' : List (Member kind)}
  (h : List.Forall₂ (MemberChange pool flag) members members')

include h

theorem fits_of_memberChanges
    (hfits : members.length < 0x10000 ∧ ∀ m ∈ members, m.attributes.length < 0x10000) :
    members'.length < 0x10000 ∧ ∀ m ∈ members', m.attributes.length < 0x10000 := by
  refine ⟨h.length_eq ▸ hfits.1, fun m' hmem => ?_⟩
  obtain ⟨m, hm, hchange⟩ := exists_of_mem_of_forall₂ h m' hmem
  exact Nat.lt_of_le_of_lt hchange.attributes.length_le (hfits.2 m hm)

theorem infos_of_memberChanges (hinfos : ∀ m ∈ members, ∀ item ∈ m.attributes, item.info.length < UInt32.size) :
    ∀ m ∈ members', ∀ item ∈ m.attributes, item.info.length < UInt32.size := by
  intro m' hmem
  obtain ⟨m, hm, hchange⟩ := exists_of_mem_of_forall₂ h m' hmem
  exact hchange.attributes.infos (hinfos m hm)

end Members

theorem ClassChange.writable (h : ClassChange file confined) (hregular : confined.pool.Regular)
    (hwritable : file.Writable) : confined.Writable where
  numbered := hregular.numbered
  superClass := h.superClass ▸ hwritable.superClass
  infos := by
    have hinfos := hwritable.infos
    simp only [ClassFile.allAttributes, List.mem_append, List.mem_flatMap] at hinfos ⊢
    rintro item ((hmem | ⟨field, hfield, hmem⟩) | ⟨method, hmethod, hmem⟩)
    · exact h.attributes.infos (fun item hmem => hinfos item (.inl (.inl hmem))) item hmem
    · exact infos_of_memberChanges h.fields (fun field hfield item hmem =>
        hinfos item (.inl (.inr ⟨field, hfield, hmem⟩))) field hfield item hmem
    · exact infos_of_memberChanges h.methods (fun method hmethod item hmem =>
        hinfos item (.inr ⟨method, hmethod, hmem⟩)) method hmethod item hmem
  fits :=
    { texts := fun constant hmem => by
        obtain ⟨entry, hentry, rfl⟩ := List.mem_map.1 hmem
        exact hregular.fits _ _ (constantAt_of_mem hregular.sound hentry)
      interfaces := h.interfaces ▸ hwritable.fits.interfaces
      fields := fits_of_memberChanges h.fields hwritable.fits.fields
      methods := fits_of_memberChanges h.methods hwritable.fits.methods
      attributes := Nat.lt_of_le_of_lt h.attributes.length_le hwritable.fits.attributes }

/-- What confining a class gives can be written, and is read back. -/
theorem confine_writes (hparse : ClassFile.parse bytes = .ok file)
    (hrun : outcome (r.confine file) before = (.ok confined, after)) :
    ∃ written read, confined.toBytes = .ok written ∧ ClassFile.parse written = .ok read ∧
      confined.SameParts read := by
  obtain ⟨hchange, hregular⟩ := classChange_of_confine (ClassFile.regular_of_parse hparse) hrun
  exact (hchange.writable hregular (ClassFile.writable_of_parse hparse)).exists_parse

theorem confine_writes_example :
    ClassFile.parse exampleBytes = .ok exampleClass ∧
    outcome ((exampleResolver true).confine exampleClass) .none = (.ok confinedClass, .none) ∧
    ∃ written read, confinedClass.toBytes = .ok written ∧ ClassFile.parse written = .ok read ∧
      confinedClass.SameParts read :=
  ⟨parse_exampleBytes, outcome_confine_example true,
    confine_writes parse_exampleBytes (outcome_confine_example true)⟩

end ClassSandbox
