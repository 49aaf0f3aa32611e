import ClassSandbox.Proofs.Confinement.Headers
import ClassSandbox.Proofs.ConstantPool.Representation

/-!
# Pools on the way

Confinement changes the pool of a class only by its operations. So a pool that is `Built` stays so in each of the
parts before the sweep, and when the sweep takes the offsets of the constants for their indices it takes them for the
right ones. Together with what holds of pools that are built and of pools that are read, this is `pools_laidOut`.
-/

namespace ClassSandbox

open ConstantPool

namespace Confinement

variable {α : Type} {r : Resolver} {editor later : PoolEditor}

theorem built_of_onPool (h : editor.pool.Built) {action : PoolAction α} (hoperation : PoolAction.Operation action)
    {a : α} (hrun : Gives (onPool action) editor a later) : later.pool.Built := by
  have hafter := h.after hoperation
  rwa [(gives_onPool hrun).1] at hafter

theorem built_of_newText (h : editor.pool.Built) {index found : ConstantIndex} {old new : String}
    (hrun : Gives (newText index old new) editor found later) : later.pool.Built := by
  unfold newText at hrun
  split at hrun
  · obtain ⟨-, rfl⟩ := gives_pure hrun
    exact h
  · exact built_of_onPool h (.text new) hrun

theorem built_of_setSignature (h : editor.pool.Built) {items result : List Attribute} {old new : Option String}
    (hrun : Gives (setSignature items old new) editor result later) : later.pool.Built := by
  unfold setSignature at hrun
  split at hrun
  · obtain ⟨-, rfl⟩ := gives_pure hrun
    exact h
  · obtain ⟨position?, _, hread, hrun⟩ := gives_bind hrun
    obtain ⟨-, rfl⟩ := gives_fromPool hread
    split at hrun
    · obtain ⟨-, rfl⟩ := gives_pure hrun
      exact h
    · split at hrun
      · obtain ⟨-, rfl⟩ := gives_pure hrun
        exact h
      · obtain ⟨text, middle, htext, hrun⟩ := gives_bind hrun
        obtain ⟨item, last, hitem, hrun⟩ := gives_bind hrun
        obtain ⟨-, rfl⟩ := gives_pure hrun
        exact built_of_onPool (built_of_onPool h (.text _) htext) (.write signatureKind text) hitem

theorem built_of_setClass (h : editor.pool.Built) {index : ConstantIndex} {name : String} {u : Unit}
    (hrun : Gives (setClass index name) editor u later) : later.pool.Built := by
  obtain ⟨_, _, hget, hrun⟩ := gives_bind hrun
  obtain ⟨rfl, rfl⟩ := gives_get hget
  split at hrun
  · obtain ⟨-, rfl⟩ := gives_pure hrun
    exact h
  · obtain ⟨_, _, hmark, hrun⟩ := gives_bind hrun
    obtain rfl := gives_modify hmark
    have hmarked : (PoolEditor.mk editor.pool (editor.settled.insert index)).pool.Built := h
    obtain ⟨current, _, hread, hrun⟩ := gives_bind hrun
    obtain ⟨-, rfl⟩ := gives_fromPool hread
    split at hrun
    · obtain ⟨text, middle, htext, hrun⟩ := gives_bind hrun
      exact built_of_onPool (built_of_onPool hmarked (.text name) htext) (.replace index (.classRef text)) hrun
    · obtain ⟨-, rfl⟩ := gives_pure hrun
      exact h

/-! ## The parts before the sweep -/

theorem progress_built : Progress (fun editor => editor.pool.Built) fun _ later => later.pool.Built :=
  ⟨fun h => h, fun _ h => h, fun _ h => h⟩

theorem built_of_setClasses (h : editor.pool.Built) {assignments : List (ConstantIndex × String)} {u : Unit}
    (hrun : Gives (assignments.forM fun (index, name) => setClass index name) editor u later) :
    later.pool.Built :=
  progress_built.forM (fun _ _ _ _ _ hready hstep => built_of_setClass hready hstep) h hrun

theorem built_of_confineHeader {file : ClassFile} (h : editor.pool.Built) {attributes : List Attribute}
    (hrun : Gives (r.confineHeader file) editor attributes later) : later.pool.Built := by
  obtain ⟨_, _, _, -, -, hclasses, hsignature⟩ := Resolver.exists_of_confineHeader hrun
  exact built_of_setSignature (built_of_setClasses h hclasses) hsignature

theorem built_of_confineField (h : editor.pool.Built) {field confined : Field}
    (hrun : Gives (r.confineField field) editor confined later) : later.pool.Built := by
  obtain ⟨_, _, _, -, -, htext, hsignature, -⟩ := Resolver.exists_of_confineField hrun
  exact built_of_setSignature (built_of_newText h htext) hsignature

theorem built_of_confineMethod (h : editor.pool.Built) {method confined : Method}
    (hrun : Gives (r.confineMethod method) editor confined later) : later.pool.Built := by
  obtain ⟨_, _, _, _, _, -, -, -, htext, hsignature, hclasses, -⟩ := Resolver.exists_of_confineMethod hrun
  exact built_of_setClasses (built_of_setSignature (built_of_newText h htext) hsignature) hclasses

theorem built_of_mapM {kind : Declared} {confineMember : Member kind → Confinement (Member kind)}
    (hstep : ∀ {editor later : PoolEditor} {before after : Member kind}, editor.pool.Built →
      Gives (confineMember before) editor after later → later.pool.Built)
    (h : editor.pool.Built) {members confined : List (Member kind)}
    (hrun : Gives (members.mapM confineMember) editor confined later) : later.pool.Built := by
  obtain ⟨hbuilt, -⟩ : later.pool.Built ∧ List.Forall₂ (fun _ _ => True) members confined :=
    progress_built.mapM (fun _ h => h) (fun hready hrun => ⟨hstep hready hrun, trivial⟩) h hrun
  exact hbuilt

end Confinement

/-! ## Indices everywhere -/

open Confinement

/-- How pools are laid out wherever they come from, and that no offset is cut off where it becomes an index. -/
structure PoolsLaidOut : Prop where
  built {pool : ConstantPool} : pool.Built → pool.Represented
  /-- Each state from which the reading of a pool goes on. What is read next gets its offset as its index. -/
  reading {count : UInt16} {bytes rest : Bytes} {pool : ConstantPool} : Reading count bytes pool rest →
    decodeLoop count.toNat empty bytes = decodeLoop count.toNat pool rest ∧ pool.constants.Packed 1 ∧
      (pool.constants.nextOffset < count.toNat →
        (UInt16.ofNat pool.constants.nextOffset).toNat = pool.constants.nextOffset)
  /-- The pool of a class when the sweep over its constants begins. -/
  sweep {r : Resolver} {file : ClassFile} {attributes : List Attribute} {fields : List Field}
      {methods : List Method} {headed between swept : PoolEditor} : file.pool.Built →
    Gives (r.confineHeader file) ⟨file.pool, ∅⟩ attributes headed →
    Gives (file.fields.mapM r.confineField) headed fields between →
    Gives (file.methods.mapM r.confineMethod) between methods swept →
      swept.pool.Built ∧ ∀ entry ∈ swept.pool.constants.toList,
        (UInt16.ofNat entry.1).toNat = entry.1 ∧ swept.pool.constantAt (UInt16.ofNat entry.1) = .ok entry.2

theorem pools_laidOut : PoolsLaidOut where
  built h := h.represented
  reading h := ⟨h.decodeLoop_eq, h.packed, fun hmore =>
    UInt16.toNat_ofNat_of_lt' (Nat.lt_trans hmore (UInt16.toNat_lt _))⟩
  sweep h hheader hfields hmethods := by
    have hstart : (PoolEditor.mk _ ∅).pool.Built := h
    have hfirst := built_of_confineHeader hstart hheader
    have hsecond := built_of_mapM (fun h hrun => built_of_confineField h hrun) hfirst hfields
    have hbuilt := built_of_mapM (fun h hrun => built_of_confineMethod h hrun) hsecond hmethods
    refine ⟨hbuilt, fun entry hmem => ?_⟩
    have hindex := hbuilt.represented.indices entry hmem
    refine ⟨hindex, constantAt_eq_ok_iff.2 ?_⟩
    rwa [hindex, OffsetVector.get?_eq_some_iff hbuilt.numbered.ordered]

/-! ## An example -/

/-- A number that takes two slots, and a text after it. -/
def widePool : ConstantPool := (empty.store (.long 7)).store (.utf8 "a")

theorem built_widePool : widePool.Built := by
  have hlong : outcome (PoolAction.append (.long 7)) empty = (.ok 1, empty.store (.long 7)) := by
    rw [PoolAction.outcome_append]
    with_unfolding_all rfl
  have htext : outcome (PoolAction.append (.utf8 "a")) (empty.store (.long 7)) = (.ok 3, widePool) := by
    rw [PoolAction.outcome_append]
    with_unfolding_all rfl
  have hfirst := Built.empty.after (.append (.long 7))
  rw [hlong] at hfirst
  have hsecond := hfirst.after (.append (.utf8 "a"))
  rwa [htext] at hsecond

/-- Nothing is found between the number and the text, and the text stays whatever becomes of the number. -/
theorem pools_laidOut_wide :
    widePool.Built ∧ widePool.constantAt 2 = .error (.missingConstant 2) ∧
      (outcome (PoolAction.replace 1 (.double 0)) widePool).2.constantAt 3 = .ok (.utf8 "a") := by
  have hrepresented := pools_laidOut.built built_widePool
  have hlong : widePool.constantAt 1 = .ok (.long 7) := by with_unfolding_all rfl
  have htext : widePool.constantAt 3 = .ok (.utf8 "a") := by with_unfolding_all rfl
  exact ⟨built_widePool, hrepresented.inside hlong (by decide) (by decide),
    hrepresented.stays htext (.elsewhere .refl (by decide))⟩

end ClassSandbox
