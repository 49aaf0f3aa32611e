import ClassSandbox.Proofs.Confinement.Runs

/-!
# Headers

What stands in the header of a class, of a field and of a method (`header_eq_ok`, `fieldHeader_eq_ok`,
`methodHeader_eq_ok`), and what resolution may make of its parts (`mayGive_resolveClassHeader`,
`mayGive_resolveField`, `mayGive_resolveMethod`). The classes that the header of a class leads to are its
`assignments`, which are set one after another (`confineHeader_eq`).

A run that confines such a part reads its header, resolves it, and puts the results in place:
`exists_of_confineHeader`, `exists_of_confineField` and `exists_of_confineMethod` say so, and `exists_of_confine` of
a whole class.
-/

namespace ClassSandbox

open Confinement

/-! ## Reading -/

theorem ClassFile.header_eq_ok {file : ClassFile} {header : ClassHeader} (h : file.header = .ok header) :
    file.thisName = .ok header.name ∧ file.superName = .ok header.superName ∧
      file.interfaceNames = .ok header.interfaces ∧
      firstSignature file.pool file.attributes = .ok header.signature := by
  obtain ⟨name, hname, h⟩ := except_bind_eq_ok_iff.1 h
  obtain ⟨superName, hsuper, h⟩ := except_bind_eq_ok_iff.1 h
  obtain ⟨interfaces, hinterfaces, h⟩ := except_bind_eq_ok_iff.1 h
  obtain ⟨signature, hsignature, h⟩ := except_bind_eq_ok_iff.1 h
  cases h
  exact ⟨hname, hsuper, hinterfaces, hsignature⟩

namespace Member

variable {pool : ConstantPool}

theorem fieldHeader_eq_ok {field : Field} {header : FieldHeader} (h : field.fieldHeader pool = .ok header) :
    header.flags = field.flags ∧ pool.textAt field.name = .ok header.name ∧
      pool.textAt field.descriptor = .ok header.descriptor ∧
      firstSignature pool field.attributes = .ok header.signature := by
  obtain ⟨name, hname, h⟩ := except_bind_eq_ok_iff.1 h
  obtain ⟨descriptor, hdescriptor, h⟩ := except_bind_eq_ok_iff.1 h
  obtain ⟨signature, hsignature, h⟩ := except_bind_eq_ok_iff.1 h
  cases h
  exact ⟨rfl, hname, hdescriptor, hsignature⟩

theorem methodHeader_eq_ok {method : Method} {exceptions : List ConstantIndex} {header : MethodHeader}
    (h : method.methodHeader exceptions pool = .ok header) :
    header.flags = method.flags ∧ pool.textAt method.name = .ok header.name ∧
      pool.textAt method.descriptor = .ok header.descriptor ∧
      firstSignature pool method.attributes = .ok header.signature ∧
      exceptions.mapM pool.classNameAt = .ok header.exceptions := by
  obtain ⟨name, hname, h⟩ := except_bind_eq_ok_iff.1 h
  obtain ⟨descriptor, hdescriptor, h⟩ := except_bind_eq_ok_iff.1 h
  obtain ⟨signature, hsignature, h⟩ := except_bind_eq_ok_iff.1 h
  obtain ⟨names, hnames, h⟩ := except_bind_eq_ok_iff.1 h
  cases h
  exact ⟨rfl, hname, hdescriptor, hsignature, hnames⟩

end Member

/-! ## Resolution -/

theorem AccessFlags.bits_without {kind : Declared} (flags : AccessFlags kind) (flag : UInt16) :
    (flags.without flag).bits = flags.bits &&& ~~~flag := by
  change flags.bits &&& ~~~flag &&& kind.mask = _
  rw [UInt16.and_assoc, UInt16.and_comm _ kind.mask, ← UInt16.and_assoc, flags.declared]

/-- No other flag is dropped. -/
theorem AccessFlags.without_or {kind : Declared} (flags : AccessFlags kind) (flag : UInt16) :
    (flags.without flag).bits ||| flag = flags.bits ||| flag := by
  rw [bits_without, ← UInt16.toBitVec_inj]
  ext i hi
  simp only [UInt16.toBitVec_or, UInt16.toBitVec_and, UInt16.toBitVec_not, BitVec.getElem_or, BitVec.getElem_and,
    BitVec.getElem_not]
  cases flag.toBitVec[i] <;> simp

/-- A flag that was dropped is not there to be dropped again. -/
theorem AccessFlags.without_without {kind : Declared} (flags : AccessFlags kind) (flag : UInt16) :
    (flags.without flag).without flag = flags.without flag := by
  have hbits : (flags.without flag).bits &&& ~~~flag = flags.bits &&& ~~~flag := by
    rw [bits_without, UInt16.and_assoc, UInt16.and_self]
  exact congrArg ofBits hbits

namespace Resolver

variable {r : Resolver}

theorem keptFieldFlags_keptFieldFlags (flags : AccessFlags .field) :
    r.keptFieldFlags (r.keptFieldFlags flags) = r.keptFieldFlags flags := by
  unfold keptFieldFlags
  by_cases hdropped : (r.enforces || !flags.has staticFlag) = true
  · rw [if_pos hdropped]
    split
    · exact flags.without_without volatileFlag
    · rfl
  · simp only [if_neg hdropped]

theorem keptFieldFlags_or (flags : AccessFlags .field) :
    (r.keptFieldFlags flags).bits ||| volatileFlag = flags.bits ||| volatileFlag := by
  unfold keptFieldFlags
  split
  · exact flags.without_or volatileFlag
  · rfl

theorem mayGive_resolveClassHeader {header resolved : ClassHeader}
    (h : MayGive (r.resolveClassHeader header) resolved) :
    MayGive (r.resolveClass header.name) resolved.name ∧
      MayGive (header.superName.mapM r.resolveClass) resolved.superName ∧
      MayGive (header.interfaces.mapM r.resolveClass) resolved.interfaces ∧
      MayGive (r.resolveSignature header.signature) resolved.signature := by
  obtain ⟨name, hname, h⟩ := mayGive_bind h
  obtain ⟨superName, hsuper, h⟩ := mayGive_bind h
  obtain ⟨interfaces, hinterfaces, h⟩ := mayGive_bind h
  obtain ⟨signature, hsignature, h⟩ := mayGive_bind h
  obtain rfl := mayGive_pure h
  exact ⟨hname, hsuper, hinterfaces, hsignature⟩

theorem mayGive_resolveField {header resolved : FieldHeader} (h : MayGive (r.resolveField header) resolved) :
    resolved.flags = r.keptFieldFlags header.flags ∧ resolved.name = header.name ∧
      MayGive (r.resolveDescriptor header.descriptor) resolved.descriptor ∧
      MayGive (r.resolveFieldSignature header.signature) resolved.signature := by
  obtain ⟨descriptor, hdescriptor, h⟩ := mayGive_bind h
  obtain ⟨signature, hsignature, h⟩ := mayGive_bind h
  obtain rfl := mayGive_pure h
  exact ⟨rfl, rfl, hdescriptor, hsignature⟩

theorem mayGive_resolveMethod {header resolved : MethodHeader} (h : MayGive (r.resolveMethod header) resolved) :
    resolved.flags = header.flags.without synchronizedFlag ∧ resolved.name = header.name ∧
      MayGive (r.resolveMethodDescriptor header.descriptor) resolved.descriptor ∧
      MayGive (r.resolveSignature header.signature) resolved.signature ∧
      MayGive (header.exceptions.mapM r.resolveClass) resolved.exceptions := by
  obtain ⟨descriptor, hdescriptor, h⟩ := mayGive_bind h
  obtain ⟨signature, hsignature, h⟩ := mayGive_bind h
  obtain ⟨exceptions, hexceptions, h⟩ := mayGive_bind h
  obtain rfl := mayGive_pure h
  exact ⟨rfl, rfl, hdescriptor, hsignature, hexceptions⟩

/-! ## The classes of a header -/

/-- The classes to which a resolved header gives names: the class itself, its superclass and its interfaces. -/
def assignments (file : ClassFile) (resolved : ClassHeader) : List (ConstantIndex × String) :=
  (file.thisClass, resolved.name) :: ((file.superClass.toList.zip resolved.superName.toList) ++
    file.interfaces.zip resolved.interfaces)

theorem confineHeader_eq (r : Resolver) (file : ClassFile) :
    r.confineHeader file = (do
      let header ← fromPool fun _ => file.header
      let resolved ← r.resolveClassHeader header
      (assignments file resolved).forM fun (index, name) => setClass index name
      setSignature file.attributes header.signature resolved.signature) := by
  unfold confineHeader
  congr 1
  funext header
  congr 1
  funext resolved
  cases hindex : file.superClass <;> cases hname : resolved.superName <;> simp [assignments, hindex, hname]

theorem exists_of_mem_assignments {file : ClassFile} {header resolved : ClassHeader}
    (hheader : file.header = .ok header) (hresolved : MayGive (r.resolveClassHeader header) resolved) :
    ∀ entry ∈ assignments file resolved,
      ∃ old, file.pool.classNameAt entry.1 = .ok old ∧ MayGive (r.resolveClass old) entry.2 := by
  obtain ⟨hname, hsuper, hinterfaces, -⟩ := ClassFile.header_eq_ok hheader
  obtain ⟨hname', hsuper', hinterfaces', -⟩ := mayGive_resolveClassHeader hresolved
  intro entry hmem
  rcases List.mem_cons.1 hmem with rfl | hmem
  · exact ⟨header.name, hname, hname'⟩
  rcases List.mem_append.1 hmem with hmem | hmem
  · rw [ClassFile.superName] at hsuper
    cases hindex : file.superClass <;> cases hresult : resolved.superName <;> rw [hindex, hresult] at hmem
    case some.some index name =>
      obtain rfl := List.mem_singleton.1 hmem
      rw [hindex] at hsuper
      rw [hresult] at hsuper'
      exact exists_of_mapM_some hsuper hsuper'
    all_goals cases hmem
  · exact exists_of_mem_zip_of_mapM hinterfaces hinterfaces' entry hmem

/-! ## Runs -/

variable {file confined : ClassFile} {editor later : PoolEditor}

theorem exists_of_confineHeader {attributes : List Attribute}
    (hrun : Gives (r.confineHeader file) editor attributes later) :
    ∃ header resolved middle, file.header = .ok header ∧ MayGive (r.resolveClassHeader header) resolved ∧
      Gives ((assignments file resolved).forM fun (index, name) => setClass index name) editor () middle ∧
      Gives (setSignature file.attributes header.signature resolved.signature) middle attributes later := by
  rw [confineHeader_eq] at hrun
  obtain ⟨header, _, hread, hrun⟩ := gives_bind hrun
  obtain ⟨hheader, rfl⟩ := gives_fromPool hread
  obtain ⟨resolved, _, hlift, hrun⟩ := gives_bind hrun
  obtain ⟨rfl, hresolved⟩ := gives_lift hlift
  obtain ⟨_, middle, hclasses, hsignature⟩ := gives_bind hrun
  exact ⟨header, resolved, middle, hheader, hresolved, hclasses, hsignature⟩

theorem exists_of_confineField {field confined : Field}
    (hrun : Gives (r.confineField field) editor confined later) :
    ∃ header resolved middle, field.fieldHeader editor.pool = .ok header ∧
      MayGive (r.resolveField header) resolved ∧
      Gives (newText field.descriptor header.descriptor resolved.descriptor) editor confined.descriptor middle ∧
      Gives (setSignature field.attributes header.signature resolved.signature) middle confined.attributes later ∧
      confined.name = field.name ∧ confined.flags = resolved.flags := by
  obtain ⟨header, _, hread, hrun⟩ := gives_bind hrun
  obtain ⟨hheader, rfl⟩ := gives_fromPool hread
  obtain ⟨resolved, _, hlift, hrun⟩ := gives_bind hrun
  obtain ⟨rfl, hresolved⟩ := gives_lift hlift
  obtain ⟨descriptor, middle, htext, hrun⟩ := gives_bind hrun
  obtain ⟨attributes, _, hsignature, hrun⟩ := gives_bind hrun
  obtain ⟨rfl, rfl⟩ := gives_pure hrun
  exact ⟨header, resolved, middle, hheader, hresolved, htext, hsignature, rfl, rfl⟩

theorem exists_of_confineMethod {method confined : Method}
    (hrun : Gives (r.confineMethod method) editor confined later) :
    ∃ exceptions header resolved middle next, declaredExceptions editor.pool method.attributes = .ok exceptions ∧
      method.methodHeader exceptions editor.pool = .ok header ∧ MayGive (r.resolveMethod header) resolved ∧
      Gives (newText method.descriptor header.descriptor resolved.descriptor) editor confined.descriptor middle ∧
      Gives (setSignature method.attributes header.signature resolved.signature) middle confined.attributes next ∧
      Gives ((exceptions.zip resolved.exceptions).forM fun (index, name) => setClass index name) next () later ∧
      confined.name = method.name ∧ confined.flags = resolved.flags := by
  obtain ⟨exceptions, _, hread, hrun⟩ := gives_bind hrun
  obtain ⟨hexceptions, rfl⟩ := gives_fromPool hread
  obtain ⟨header, _, hread, hrun⟩ := gives_bind hrun
  obtain ⟨hheader, rfl⟩ := gives_fromPool hread
  obtain ⟨resolved, _, hlift, hrun⟩ := gives_bind hrun
  obtain ⟨rfl, hresolved⟩ := gives_lift hlift
  obtain ⟨descriptor, middle, htext, hrun⟩ := gives_bind hrun
  obtain ⟨attributes, next, hsignature, hrun⟩ := gives_bind hrun
  obtain ⟨_, _, hclasses, hrun⟩ := gives_bind hrun
  obtain ⟨rfl, rfl⟩ := gives_pure hrun
  exact ⟨exceptions, header, resolved, middle, next, hexceptions, hheader, hresolved, htext, hsignature, hclasses,
    rfl, rfl⟩

/-- The sweep comes last, over the constants that are there when it begins. -/
theorem exists_of_confine {before after : Findings}
    (hrun : outcome (r.confine file) before = (.ok confined, after)) :
    ∃ headed between swept later : PoolEditor,
      Gives (r.confineHeader file) ⟨file.pool, ∅⟩ confined.attributes headed ∧
      Gives (file.fields.mapM r.confineField) headed confined.fields between ∧
      Gives (file.methods.mapM r.confineMethod) between confined.methods swept ∧
      Gives (swept.pool.constants.toList.forM fun (offset, constant) =>
        r.confineConstant (UInt16.ofNat offset) constant) swept () later ∧
      confined = { file with pool := later.pool, fields := confined.fields, methods := confined.methods,
                             attributes := confined.attributes } := by
  obtain ⟨⟨found, last⟩, middle, hparts, hrun⟩ := outcome_bind_eq_ok_iff.1 hrun
  cases hrun
  replace hparts : Gives (r.confineParts file) ⟨file.pool, ∅⟩ confined last := ⟨before, _, hparts⟩
  obtain ⟨attributes, headed, hheader, hparts⟩ := gives_bind hparts
  obtain ⟨fields, between, hfields, hparts⟩ := gives_bind hparts
  obtain ⟨methods, swept, hmethods, hparts⟩ := gives_bind hparts
  obtain ⟨editor, _, hget, hparts⟩ := gives_bind hparts
  obtain ⟨rfl, rfl⟩ := gives_get hget
  obtain ⟨_, later, hsweep, hparts⟩ := gives_bind hparts
  obtain ⟨_, _, hget, hparts⟩ := gives_bind hparts
  obtain ⟨rfl, rfl⟩ := gives_get hget
  obtain ⟨rfl, rfl⟩ := gives_pure hparts
  exact ⟨headed, between, _, _, hheader, hfields, hmethods, hsweep, rfl⟩

end Resolver

end ClassSandbox
