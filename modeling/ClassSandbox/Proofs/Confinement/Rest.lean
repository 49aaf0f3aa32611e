import ClassSandbox.Proofs.Confinement.Edits
import ClassSandbox.Proofs.Confinement.Headers
import ClassSandbox.Proofs.ConstantPool
import ClassSandbox.Proofs.Resolution.Rest

/-!
# Classes at rest

A class is at rest if what its header, its fields, its methods and the constants of its pool mention is at rest
under resolution (`ClassFile.AtRest`). To confine it changes nothing, neither in the class nor in its pool, unless a
name is blamed that only resolved names lead to (`rests_confine`).
-/

namespace ClassSandbox

open Confinement

namespace Resolver

variable {r : Resolver} {pool : ConstantPool}

/-! ## Confinements at rest -/

section RestsOn

variable {α β : Type} {x : Confinement α} {next : α → Confinement β} {a : α} {b : β}

/-- The confinement gives a value and leaves the pool alone, unless it blames a name that only resolved names lead
to. -/
def RestsOn (r : Resolver) (pool : ConstantPool) (x : Confinement α) (a : α) : Prop :=
  ∀ settled findings,
    (∃ later, (outcome (x.run ⟨pool, settled⟩) findings).1 = .ok (a, ⟨pool, later⟩)) ∨
      ∃ offender, r.BlamesLater offender ∧
        (outcome (x.run ⟨pool, settled⟩) findings).1 = .error (.violation ⟨offender, r.sandbox.text⟩)

theorem restsOn_pure : r.RestsOn pool (pure a) a := fun settled _ => .inl ⟨settled, rfl⟩

theorem RestsOn.bind (hx : r.RestsOn pool x a) (hnext : r.RestsOn pool (next a) b) :
    r.RestsOn pool (x >>= next) b := by
  intro settled findings
  have hfirst := hx settled findings
  rw [outcome_run_bind]
  generalize outcome (x.run ⟨pool, settled⟩) findings = found at hfirst ⊢
  obtain ⟨result, after⟩ := found
  rcases hfirst with ⟨later, h⟩ | ⟨offender, hlater, h⟩
  · obtain rfl : result = .ok (a, ⟨pool, later⟩) := h
    exact hnext later after
  · obtain rfl : result = .error _ := h
    exact .inr ⟨offender, hlater, rfl⟩

theorem restsOn_get_bind {next : PoolEditor → Confinement β}
    (hnext : ∀ settled, r.RestsOn pool (next ⟨pool, settled⟩) b) : r.RestsOn pool (get >>= next) b := by
  intro settled findings
  rw [outcome_run_bind, outcome_run_get]
  exact hnext settled settled findings

theorem restsOn_settle (index : ConstantIndex) :
    r.RestsOn pool (modify fun editor => { editor with settled := editor.settled.insert index }) ⟨⟩ :=
  fun _ _ => .inl ⟨_, rfl⟩

theorem restsOn_fromPool {read : ConstantPool → Except ClassFault α} (h : read pool = .ok a) :
    r.RestsOn pool (fromPool read) a := by
  intro settled findings
  rw [outcome_run_fromPool]
  simp only [h]
  exact .inl ⟨settled, rfl⟩

theorem restsOn_lift {x : Resolution α} (h : r.Rests x a) : r.RestsOn pool (liftM x) a := by
  intro settled findings
  have hfirst := h findings
  rw [outcome_run_lift]
  generalize outcome x findings = found at hfirst ⊢
  obtain ⟨result, after⟩ := found
  rcases hfirst with h | ⟨offender, hlater, h⟩
  · obtain rfl : result = .ok a := h
    exact .inl ⟨settled, rfl⟩
  · obtain rfl : result = .error _ := h
    exact .inr ⟨offender, hlater, rfl⟩

theorem restsOn_forM {f : α → Confinement PUnit} {items : List α} (h : ∀ a ∈ items, r.RestsOn pool (f a) ⟨⟩) :
    r.RestsOn pool (items.forM f) ⟨⟩ := by
  induction items with
  | nil => exact restsOn_pure
  | cons a items ih =>
    rw [List.forall_mem_cons] at h
    exact h.1.bind (ih h.2)

theorem restsOn_mapM {f : α → Confinement α} {items : List α} (h : ∀ a ∈ items, r.RestsOn pool (f a) a) :
    r.RestsOn pool (items.mapM f) items := by
  induction items with
  | nil => exact restsOn_pure
  | cons a items ih =>
    rw [List.forall_mem_cons] at h
    rw [List.mapM_cons]
    exact h.1.bind ((ih h.2).bind restsOn_pure)

end RestsOn

/-! ## Steps -/

theorem restsOn_setClass {index : ConstantIndex} {name : String} (h : pool.classNameAt index = .ok name) :
    r.RestsOn pool (setClass index name) () := by
  refine restsOn_get_bind fun settled => ?_
  split
  · exact restsOn_pure
  · refine (restsOn_settle index).bind ((restsOn_fromPool h).bind ?_)
    rw [if_neg (not_not.2 rfl)]
    exact restsOn_pure

theorem restsOn_newText (index : ConstantIndex) (text : String) :
    r.RestsOn pool (newText index text text) index := by
  rw [newText, if_pos rfl]
  exact restsOn_pure

theorem restsOn_setSignature (items : List Attribute) (signature : Option String) :
    r.RestsOn pool (setSignature items signature signature) items := by
  rw [setSignature, if_pos rfl]
  exact restsOn_pure

end Resolver

/-! ## Constants -/

/-- The text to which the constant points is at rest under the operation that resolves it. -/
def Constant.AtRest (r : Resolver) (pool : ConstantPool) : Constant → Prop
  | .classRef name => ∃ text, pool.textAt name = .ok text ∧ r.Rests (r.resolveClass text) text
  | .nameAndType _ descriptor =>
    ∃ text, pool.textAt descriptor = .ok text ∧ r.Rests (r.resolveAnyDescriptor text) text
  | .methodType descriptor =>
    ∃ text, pool.textAt descriptor = .ok text ∧ r.Rests (r.resolveMethodDescriptor text) text
  | _ => True

theorem Constant.AtRest.mono {r : Resolver} {pool later : ConstantPool} {constant : Constant}
    (h : constant.AtRest r pool) (hkeeps : pool.KeepsTexts later) : constant.AtRest r later := by
  cases constant with
  | classRef | nameAndType | methodType =>
    obtain ⟨text, htext, hrests⟩ := h
    exact ⟨text, hkeeps _ _ htext, hrests⟩
  | _ => trivial

namespace Resolver

variable {r : Resolver} {pool : ConstantPool}

theorem restsOn_confineText (operation : Resolver → String → Resolution String) {text : ConstantIndex}
    {old : String} (hold : pool.textAt text = .ok old) (hrests : r.Rests (operation r old) old)
    (change : String → Confinement Unit) :
    r.RestsOn pool (do let old ← fromPool fun pool => pool.textAt text
                       let new ← liftM (operation r old)
                       if old ≠ new then change new) () := by
  refine (restsOn_fromPool hold).bind ((restsOn_lift hrests).bind ?_)
  rw [if_neg (not_not.2 rfl)]
  exact restsOn_pure

theorem restsOn_confineConstant {constant : Constant} (h : constant.AtRest r pool) (index : ConstantIndex) :
    r.RestsOn pool (r.confineConstant index constant) () := by
  unfold confineConstant
  split
  · obtain ⟨old, hold, hrests⟩ := h
    refine restsOn_get_bind fun settled => ?_
    split
    · exact restsOn_pure
    · exact restsOn_confineText resolveClass hold hrests _
  · obtain ⟨old, hold, hrests⟩ := h
    exact restsOn_confineText _ hold hrests _
  · obtain ⟨old, hold, hrests⟩ := h
    exact restsOn_confineText _ hold hrests _
  · exact restsOn_pure

end Resolver

/-! ## Header, fields and methods -/

/-- The header of a class is given as it is. -/
def ClassFile.HeaderAtRest (r : Resolver) (file : ClassFile) : Prop :=
  ∃ header, file.header = .ok header ∧ r.Rests (r.resolveClassHeader header) header

/-- The header of a field is given as it is. -/
def Member.FieldAtRest (r : Resolver) (pool : ConstantPool) (field : Field) : Prop :=
  ∃ header, field.fieldHeader pool = .ok header ∧ r.Rests (r.resolveField header) header

/-- The header of a method with the exceptions that it declares is given as it is. -/
def Member.MethodAtRest (r : Resolver) (pool : ConstantPool) (method : Method) : Prop :=
  ∃ exceptions header, declaredExceptions pool method.attributes = .ok exceptions ∧
    method.methodHeader exceptions pool = .ok header ∧ r.Rests (r.resolveMethod header) header

structure ClassFile.AtRest (r : Resolver) (file : ClassFile) : Prop where
  header : file.HeaderAtRest r
  fields : ∀ field ∈ file.fields, Member.FieldAtRest r file.pool field
  methods : ∀ method ∈ file.methods, Member.MethodAtRest r file.pool method
  constants : ∀ index constant, file.pool.constantAt index = .ok constant → constant.AtRest r file.pool

namespace Resolver

variable {r : Resolver} {pool : ConstantPool} {file : ClassFile}

/-- The names in a header are those of its classes. -/
theorem classNameAt_of_mem_assignments {header : ClassHeader} (h : file.header = .ok header) :
    ∀ entry ∈ assignments file header, file.pool.classNameAt entry.1 = .ok entry.2 := by
  obtain ⟨hname, hsuper, hinterfaces, -⟩ := ClassFile.header_eq_ok h
  intro entry hmem
  rcases List.mem_cons.1 hmem with rfl | hmem
  · exact hname
  rcases List.mem_append.1 hmem with hmem | hmem
  · rw [ClassFile.superName] at hsuper
    cases hindex : file.superClass with
    | none =>
      rw [hindex] at hmem
      cases hmem
    | some index =>
      rw [hindex, Option.mapM_some, ← bind_pure_comp] at hsuper
      obtain ⟨name, hfound, hsuper⟩ := except_bind_eq_ok_iff.1 hsuper
      have hsome : some name = header.superName := Except.ok.inj hsuper
      rw [hindex, ← hsome] at hmem
      obtain rfl := List.mem_singleton.1 hmem
      exact hfound
  · exact List.forall₂_zip (forall₂_of_mapM hinterfaces) hmem

theorem restsOn_confineHeader (h : file.HeaderAtRest r) :
    r.RestsOn file.pool (r.confineHeader file) file.attributes := by
  obtain ⟨header, hheader, hrests⟩ := h
  rw [confineHeader_eq]
  refine (restsOn_fromPool hheader).bind ((restsOn_lift hrests).bind (RestsOn.bind (a := ⟨⟩) ?_ ?_))
  · exact restsOn_forM fun entry hmem => restsOn_setClass (classNameAt_of_mem_assignments hheader entry hmem)
  · exact restsOn_setSignature file.attributes header.signature

theorem restsOn_confineField {field : Field} (h : Member.FieldAtRest r pool field) :
    r.RestsOn pool (r.confineField field) field := by
  obtain ⟨header, hheader, hrests⟩ := h
  obtain ⟨hflags, -, -, -⟩ := Member.fieldHeader_eq_ok hheader
  refine (restsOn_fromPool hheader).bind ((restsOn_lift hrests).bind
    ((restsOn_newText field.descriptor header.descriptor).bind
      ((restsOn_setSignature field.attributes header.signature).bind ?_)))
  rw [hflags]
  exact restsOn_pure

theorem restsOn_confineMethod {method : Method} (h : Member.MethodAtRest r pool method) :
    r.RestsOn pool (r.confineMethod method) method := by
  obtain ⟨exceptions, header, hexceptions, hheader, hrests⟩ := h
  obtain ⟨hflags, -, -, -, hnames⟩ := Member.methodHeader_eq_ok hheader
  refine (restsOn_fromPool hexceptions).bind ((restsOn_fromPool hheader).bind ((restsOn_lift hrests).bind
    ((restsOn_newText method.descriptor header.descriptor).bind
      ((restsOn_setSignature method.attributes header.signature).bind (RestsOn.bind (a := ⟨⟩) ?_ ?_)))))
  · exact restsOn_forM fun entry hmem => restsOn_setClass (List.forall₂_zip (forall₂_of_mapM hnames) hmem)
  · rw [hflags]
    exact restsOn_pure

/-- To confine a class at rest changes nothing. -/
theorem rests_confine (hsound : file.pool.Sound) (h : file.AtRest r) : r.Rests (r.confine file) file := by
  have hsweep : ∀ entry ∈ file.pool.constants.toList,
      r.RestsOn file.pool (r.confineConstant (UInt16.ofNat entry.1) entry.2) () := fun entry hmem =>
    restsOn_confineConstant (h.constants _ _ (ConstantPool.constantAt_of_mem hsound hmem)) _
  have hparts : r.RestsOn file.pool (r.confineParts file) file := by
    refine (restsOn_confineHeader h.header).bind
      ((restsOn_mapM fun field hmem => restsOn_confineField (h.fields field hmem)).bind
        ((restsOn_mapM fun method hmem => restsOn_confineMethod (h.methods method hmem)).bind ?_))
    refine restsOn_get_bind fun settled => (restsOn_forM hsweep).bind (restsOn_get_bind fun settled => ?_)
    exact restsOn_pure
  intro findings
  rw [confine, outcome_bind]
  have hfirst := hparts ∅ findings
  generalize outcome ((r.confineParts file).run ⟨file.pool, ∅⟩) findings = found at hfirst ⊢
  obtain ⟨result, after⟩ := found
  rcases hfirst with ⟨later, hresult⟩ | ⟨offender, hlater, hresult⟩
  · obtain rfl : result = .ok (file, ⟨file.pool, later⟩) := hresult
    exact .inl rfl
  · obtain rfl : result = .error _ := hresult
    exact .inr ⟨offender, hlater, rfl⟩

end Resolver

end ClassSandbox
