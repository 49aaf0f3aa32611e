import ClassSandbox.Proofs.Confinement.Runs
import ClassSandbox.Proofs.Resolution.Elements
import ClassSandbox.Proofs.Resolution.Refusal

/-!
# Classes without references

A class that extends nothing, has no methods and refers to nothing else in its pool is confined by way of its
fields alone (`outcome_confine_plain`), as long as its own name stays. `outcome_confineField_of` takes the
outcome for a field from those of its parts.
-/

namespace ClassSandbox

open Confinement

/-- The entry of the pool mentions no class, unless it is the given one. -/
def Constant.MentionsOnly (thisClass : ConstantIndex) (entry : Nat × Constant) : Prop :=
  match entry.2 with
  | .classRef _ => UInt16.ofNat entry.1 = thisClass
  | .nameAndType _ _ | .methodType _ => False
  | _ => True

instance (thisClass : ConstantIndex) (entry : Nat × Constant) : Decidable (Constant.MentionsOnly thisClass entry) := by
  unfold Constant.MentionsOnly
  split <;> infer_instance

/-- A class that stands alone. -/
structure ClassFile.Plain (file : ClassFile) : Prop where
  superClass : file.superClass = none
  interfaces : file.interfaces = []
  attributes : file.attributes = []
  methods : file.methods = []

namespace Resolver

variable {r : Resolver} {file : ClassFile} {name : String} {findings : Findings}

theorem outcome_resolveClass_of_kept (hverdict : r.verdict name = ⟨name, none⟩) :
    outcome (r.resolveClass name) findings = (.ok name, findings) := by
  rw [resolveClass_eq, hverdict, reportMove, if_neg (not_not.2 rfl)]
  rfl

theorem outcome_resolveClass_of_verdict {resolved : String} (hsilenced : r.silenced = true)
    (hverdict : r.verdict name = ⟨resolved, none⟩) :
    outcome (r.resolveClass name) findings = (.ok resolved, findings) := by
  rw [resolveClass_eq, hverdict, blame, outcome_bind, outcome_pure]
  simp only [outcome_bind, outcome_reportMove, outcome_pure, reported, hsilenced, if_true, ite_self]

/-- The descriptor of a class, with the class replaced. -/
theorem outcome_resolveDescriptor_class {resolved : String} {after : Findings} (hne : name ≠ "")
    (hclass : outcome (r.resolveClass name) findings = (.ok resolved, after)) :
    outcome (r.resolveDescriptor (String.ofList ('L' :: name.toList ++ [';']))) findings =
      (.ok (String.ofList ('L' :: resolved.toList ++ [';'])), after) := by
  have hdescriptor := r.resolveDescriptor_objectArray 0 hne
  rw [objectArray, List.replicate_zero, List.nil_append] at hdescriptor
  rw [hdescriptor, outcome_bind, hclass]
  rfl

theorem outcome_confineHeader_plain (hplain : file.Plain) (hthis : file.thisName = .ok name)
    (hverdict : r.verdict name = ⟨name, none⟩) :
    outcome ((r.confineHeader file).run ⟨file.pool, ∅⟩) findings =
      (.ok ([], ⟨file.pool, Std.HashSet.insert ∅ file.thisClass⟩), findings) := by
  have hheader : file.header = .ok ⟨name, none, [], none⟩ := by
    rw [ClassFile.header, hthis, ClassFile.superName, hplain.superClass, ClassFile.interfaceNames,
      hplain.interfaces, hplain.attributes]
    rfl
  have hresolves : outcome (r.resolveClassHeader ⟨name, none, [], none⟩) findings =
      (.ok ⟨name, none, [], none⟩, findings) := by
    rw [resolveClassHeader, outcome_bind, outcome_resolveClass_of_kept hverdict]
    rfl
  have hname : file.pool.classNameAt file.thisClass = .ok name := hthis
  have hset : outcome ((setClass file.thisClass name).run ⟨file.pool, ∅⟩) findings =
      (.ok ((), ⟨file.pool, Std.HashSet.insert ∅ file.thisClass⟩), findings) := by
    simp only [setClass, outcome_run_bind, outcome_run_get, Std.HashSet.contains_empty, Bool.false_eq_true,
      if_false, outcome_run_modify, outcome_run_fromPool, hname, ne_eq, not_true_eq_false, outcome_run_pure]
  simp only [confineHeader, outcome_run_bind, outcome_run_fromPool, hheader, outcome_run_lift, hresolves, hset,
    hplain.superClass, hplain.interfaces, hplain.attributes]
  rfl

/-- A signature that comes first is replaced. -/
theorem outcome_setSignature_head {editor : PoolEditor} {item : Attribute} {rest : List Attribute}
    {old : Option String} {new : String} {index : ConstantIndex} {pool : ConstantPool}
    (hfirst : editor.pool.textAt item.name = .ok signatureKind.name) (hne : old ≠ some new)
    (htext : outcome (PoolAction.text new) editor.pool = (.ok index, pool))
    (hname : outcome (PoolAction.text signatureKind.name) pool = (.ok item.name, pool)) :
    outcome ((setSignature (item :: rest) old (some new)).run editor) findings =
      (.ok (⟨item.name, Encoder.u16 index⟩ :: rest, ⟨pool, editor.settled⟩), findings) := by
  have hposition : signaturePosition? editor.pool 0 (item :: rest) = .ok (some 0) := by
    rw [signaturePosition?, hfirst]
    rfl
  have hwrite : outcome (signatureKind.write index) pool = (.ok ⟨item.name, Encoder.u16 index⟩, pool) := by
    rw [AttributeKind.write, outcome_bind, hname]
    rfl
  simp only [setSignature, if_neg hne, outcome_run_bind, outcome_run_fromPool, hposition, outcome_run_onPool, htext,
    hwrite, outcome_run_pure, List.set_cons_zero]

/-- A field is confined by its descriptor and then by its signature. -/
theorem outcome_confineField_of (header : FieldHeader) {field : Field} {editor middle later : PoolEditor}
    {descriptor : String} {index : ConstantIndex} {signature : Option String} {attributes : List Attribute}
    (hheader : field.fieldHeader editor.pool = .ok header)
    (hdescriptor : outcome (r.resolveDescriptor header.descriptor) findings = (.ok descriptor, findings))
    (hsignature : outcome (r.resolveFieldSignature header.signature) findings = (.ok signature, findings))
    (htext : outcome ((newText field.descriptor header.descriptor descriptor).run editor) findings =
      (.ok (index, middle), findings))
    (hset : outcome ((setSignature field.attributes header.signature signature).run middle) findings =
      (.ok (attributes, later), findings)) :
    outcome ((r.confineField field).run editor) findings =
      (.ok (⟨r.keptFieldFlags header.flags, field.name, index, attributes⟩, later), findings) := by
  have hresolves : outcome (r.resolveField header) findings =
      (.ok ⟨r.keptFieldFlags header.flags, header.name, descriptor, signature⟩, findings) := by
    simp only [resolveField, outcome_bind, hdescriptor, hsignature, outcome_pure]
  simp only [confineField, outcome_run_bind, outcome_run_fromPool, hheader, outcome_run_lift, hresolves, htext,
    hset, outcome_run_pure]

theorem outcome_sweep_plain {editor : PoolEditor} {entries : List (Nat × Constant)}
    (hentries : ∀ entry ∈ entries, Constant.MentionsOnly file.thisClass entry)
    (hsettled : editor.settled.contains file.thisClass = true) :
    outcome ((entries.forM fun (offset, constant) => r.confineConstant (UInt16.ofNat offset) constant).run editor)
      findings = (.ok ((), editor), findings) := by
  induction entries with
  | nil => rfl
  | cons entry entries ih =>
    rw [List.forall_mem_cons] at hentries
    obtain ⟨offset, constant⟩ := entry
    have hfirst : outcome ((r.confineConstant (UInt16.ofNat offset) constant).run editor) findings =
        (.ok ((), editor), findings) := by
      have hmentions := hentries.1
      cases constant with
      | classRef index =>
        have hoffset : UInt16.ofNat offset = file.thisClass := hmentions
        simp only [confineConstant, outcome_run_bind, outcome_run_get, hoffset, hsettled, if_true,
          outcome_run_pure]
      | nameAndType _ _ | methodType _ => exact hmentions.elim
      | _ => rfl
    change outcome ((r.confineConstant (UInt16.ofNat offset) constant >>= fun _ =>
      entries.forM fun (offset, constant) => r.confineConstant (UInt16.ofNat offset) constant).run editor) findings = _
    rw [outcome_run_bind, hfirst]
    exact ih hentries.2

theorem outcome_confine_plain (hplain : file.Plain) (hthis : file.thisName = .ok name)
    (hverdict : r.verdict name = ⟨name, none⟩) {fields : List Field} {pool : ConstantPool} {after : Findings}
    (hfields : outcome ((file.fields.mapM r.confineField).run
      ⟨file.pool, Std.HashSet.insert ∅ file.thisClass⟩) findings =
        (.ok (fields, ⟨pool, Std.HashSet.insert ∅ file.thisClass⟩), after))
    (hpool : ∀ entry ∈ pool.constants.toList, Constant.MentionsOnly file.thisClass entry) :
    outcome (r.confine file) findings = (.ok { file with pool, fields }, after) := by
  have hparts : outcome ((r.confineParts file).run ⟨file.pool, ∅⟩) findings =
      (.ok ({ file with pool, fields }, ⟨pool, Std.HashSet.insert ∅ file.thisClass⟩), after) := by
    have hsweep := @outcome_sweep_plain r file after ⟨pool, Std.HashSet.insert ∅ file.thisClass⟩ _ hpool (by simp)
    simp only [confineParts, outcome_run_bind, outcome_confineHeader_plain hplain hthis hverdict, hfields,
      hplain.methods, List.mapM_nil, outcome_run_pure, outcome_run_get, hsweep]
    rw [← hplain.attributes, ← hplain.methods]
  rw [confine, outcome_bind, hparts]
  rfl

theorem outcome_confine_plain_of_error (hplain : file.Plain) (hthis : file.thisName = .ok name)
    (hverdict : r.verdict name = ⟨name, none⟩) {fault : SandboxFault} {after : Findings}
    (hfields : outcome ((file.fields.mapM r.confineField).run
      ⟨file.pool, Std.HashSet.insert ∅ file.thisClass⟩) findings = (.error fault, after)) :
    outcome (r.confine file) findings = (.error fault, after) := by
  have hparts : outcome ((r.confineParts file).run ⟨file.pool, ∅⟩) findings = (.error fault, after) := by
    simp only [confineParts, outcome_run_bind, outcome_confineHeader_plain hplain hthis hverdict, hfields]
  rw [confine, outcome_bind, hparts]

end Resolver

end ClassSandbox
