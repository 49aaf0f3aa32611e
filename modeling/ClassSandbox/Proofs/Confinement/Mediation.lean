import ClassSandbox.Proofs.ClassFile
import ClassSandbox.Proofs.Confinement.Parts
import ClassSandbox.Proofs.Resolution.Elements

/-!
# Complete mediation

Confinement succeeds only if every name in the class has been resolved, and leaves the result in its place:
`classMediated_of_confine` says so of the constants and members by their indices, and `confine_mediates` of what
these stand for in a class that was read from bytes.
-/

namespace ClassSandbox

open ConstantPool Confinement

/-- The constants and the members of a class are mediated, and keep their places. -/
structure ClassMediated (r : Resolver) (file confined : ClassFile) : Prop where
  constants : ∀ index constant, file.pool.constantAt index = .ok constant →
    ∃ constant', confined.pool.constantAt index = .ok constant' ∧
      Mediated r file.pool confined.pool constant constant'
  texts : file.pool.KeepsTexts confined.pool
  fields : List.Forall₂ (MemberMediated r Resolver.resolveDescriptor file.pool confined.pool) file.fields
    confined.fields
  methods : List.Forall₂ (MemberMediated r Resolver.resolveMethodDescriptor file.pool confined.pool)
    file.methods confined.methods
  thisClass : confined.thisClass = file.thisClass
  superClass : confined.superClass = file.superClass
  interfaces : confined.interfaces = file.interfaces

variable {r : Resolver} {file confined : ClassFile} {before after : Findings}

/-- A class that was settled on the way is mediated, and any other constant by the sweep. -/
theorem mediated_of_swept {original : ConstantPool} {editor later : PoolEditor} (h : Underway r original editor)
    (htexts : editor.pool.KeepsTexts later.pool) {index : ConstantIndex} {constant current constant' : Constant}
    (hc : original.constantAt index = .ok constant) (hcurrent : editor.pool.constantAt index = .ok current)
    (hswept : Swept r editor later.pool index current constant') :
    Mediated r original later.pool constant constant' := by
  by_cases hmem : index ∈ editor.settled
  · obtain ⟨name', hat, hclass⟩ := h.settled index hmem
    obtain ⟨name, rfl, hturns⟩ := hclass constant hc
    obtain rfl : .classRef name' = current := Except.ok.inj (hat.symm.trans hcurrent)
    cases hswept with
    | settled before => exact .classRef (hturns.mono (.refl _) htexts)
    | mediated pending turns => exact absurd hmem (pending name' rfl)
  · obtain rfl : constant = current := Except.ok.inj ((h.pending index constant hmem hc).symm.trans hcurrent)
    cases hswept with
    | settled before => exact absurd before hmem
    | mediated pending turns => exact turns.mono h.keepsTexts (.refl _)

theorem classMediated_of_confine (h : file.pool.Sound)
    (hrun : outcome (r.confine file) before = (.ok confined, after)) : ClassMediated r file confined := by
  obtain ⟨headed, between, swept, later, hheader, hfields, hmethods, hsweep, hconfined⟩ :=
    Resolver.exists_of_confine hrun
  have hadvanced := gives_confineHeader h hheader
  obtain ⟨hmore, hfields⟩ := gives_mapM_member (fun h hrun => gives_confineField h hrun)
    hadvanced.underway hfields
  obtain ⟨hlast, hmethods⟩ := gives_mapM_member (fun h hrun => gives_confineMethod h hrun)
    hmore.underway hmethods
  have hunderway := hlast.underway
  obtain ⟨htexts, -, hall, -⟩ := sweep_mediates (nodup_indices hunderway.sound) hunderway.sound
    (fun entry hmem => constantAt_of_mem hunderway.sound hmem) hsweep
  rw [hconfined]
  refine ⟨fun index constant hc => ?_, hunderway.keepsTexts.trans htexts,
    hfields.imp fun _ _ hfield => (hfield.mono hlast.texts).mono htexts,
    hmethods.imp fun _ _ hmethod => hmethod.mono htexts, rfl, rfl, rfl⟩
  obtain ⟨current, hcurrent⟩ := hunderway.exists_constantAt hc
  obtain ⟨constant', hat, hswept⟩ := hall _ (mem_of_constantAt hunderway.sound hcurrent)
  rw [UInt16.ofNat_toNat] at hat hswept
  exact ⟨constant', hat, mediated_of_swept hunderway htexts hc hcurrent hswept⟩

/-! ## Names -/

/-- A constant is a pair of a name and a descriptor, which are these texts. -/
def ConstantPool.PairAt (pool : ConstantPool) (index : ConstantIndex) (name descriptor : String) : Prop :=
  ∃ nameIndex descriptorIndex, pool.constantAt index = .ok (.nameAndType nameIndex descriptorIndex) ∧
    pool.textAt nameIndex = .ok name ∧ pool.textAt descriptorIndex = .ok descriptor

/-- A constant is a method type, and this is its text. -/
def ConstantPool.MethodTypeAt (pool : ConstantPool) (index : ConstantIndex) (descriptor : String) : Prop :=
  ∃ descriptorIndex, pool.constantAt index = .ok (.methodType descriptorIndex) ∧
    pool.textAt descriptorIndex = .ok descriptor

/-- Wherever a class mentions another one by its name, the confined class has what this turns into, and the
constants that mention none stay as they are. -/
structure Mediates (r : Resolver) (file confined : ClassFile) : Prop where
  classes : ∀ index name, file.pool.classNameAt index = .ok name →
    ∃ resolved, r.Resolves Resolver.resolveClass name resolved ∧ confined.pool.classNameAt index = .ok resolved
  pairs : ∀ index name descriptor, file.pool.PairAt index name descriptor →
    ∃ resolved, r.Resolves
        (if descriptor.toList.head? = some '(' then Resolver.resolveMethodDescriptor
          else Resolver.resolveDescriptor) descriptor resolved ∧
      confined.pool.PairAt index name resolved
  methodTypes : ∀ index descriptor, file.pool.MethodTypeAt index descriptor →
    ∃ resolved, r.Resolves Resolver.resolveMethodDescriptor descriptor resolved ∧
      confined.pool.MethodTypeAt index resolved
  others : ∀ index constant, file.pool.constantAt index = .ok constant →
    (∀ name, constant ≠ .classRef name) → (∀ name descriptor, constant ≠ .nameAndType name descriptor) →
    (∀ descriptor, constant ≠ .methodType descriptor) → confined.pool.constantAt index = .ok constant
  fields : List.Forall₂ (fun field field' : Field =>
    ∀ descriptor, file.pool.textAt field.descriptor = .ok descriptor →
      ∃ resolved, r.Resolves Resolver.resolveDescriptor descriptor resolved ∧
        confined.pool.textAt field'.descriptor = .ok resolved) file.fields confined.fields
  methods : List.Forall₂ (fun method method' : Method =>
    ∀ descriptor, file.pool.textAt method.descriptor = .ok descriptor →
      ∃ resolved, r.Resolves Resolver.resolveMethodDescriptor descriptor resolved ∧
        confined.pool.textAt method'.descriptor = .ok resolved) file.methods confined.methods

theorem resolves_ite_of_resolvesAny {descriptor resolved : String}
    (h : r.Resolves Resolver.resolveAnyDescriptor descriptor resolved) :
    r.Resolves
      (if descriptor.toList.head? = some '(' then Resolver.resolveMethodDescriptor
        else Resolver.resolveDescriptor) descriptor resolved := by
  intro silenced findings
  rw [← h silenced findings, Resolver.resolveAnyDescriptor]
  split <;> rfl

namespace ClassMediated

variable (h : ClassMediated r file confined)

include h

theorem classNameAt {index : ConstantIndex} {name : String}
    (hname : file.pool.classNameAt index = .ok name) :
    ∃ resolved, r.Resolves Resolver.resolveClass name resolved ∧
      confined.pool.classNameAt index = .ok resolved := by
  obtain ⟨text, hclass, htext⟩ := classNameAt_eq_ok_iff.1 hname
  obtain ⟨constant', hat, hmediated⟩ := h.constants index _ hclass
  cases hmediated with
  | classRef turns =>
    obtain ⟨resolved, hresolves, hresolved⟩ := turns name htext
    exact ⟨resolved, hresolves, classNameAt_eq_ok_iff.2 ⟨_, hat, hresolved⟩⟩
  | other noClass => exact absurd rfl (noClass text)

theorem pairAt {index : ConstantIndex} {name descriptor : String}
    (hpair : file.pool.PairAt index name descriptor) :
    ∃ resolved, r.Resolves Resolver.resolveAnyDescriptor descriptor resolved ∧
      confined.pool.PairAt index name resolved := by
  obtain ⟨nameIndex, descriptorIndex, hc, hname, hdescriptor⟩ := hpair
  obtain ⟨constant', hat, hmediated⟩ := h.constants index _ hc
  cases hmediated with
  | nameAndType turns =>
    obtain ⟨resolved, hresolves, hresolved⟩ := turns descriptor hdescriptor
    exact ⟨resolved, hresolves, nameIndex, _, hat, h.texts _ _ hname, hresolved⟩
  | other _ noPair => exact absurd rfl (noPair nameIndex descriptorIndex)

theorem methodTypeAt {index : ConstantIndex} {descriptor : String}
    (htype : file.pool.MethodTypeAt index descriptor) :
    ∃ resolved, r.Resolves Resolver.resolveMethodDescriptor descriptor resolved ∧
      confined.pool.MethodTypeAt index resolved := by
  obtain ⟨descriptorIndex, hc, hdescriptor⟩ := htype
  obtain ⟨constant', hat, hmediated⟩ := h.constants index _ hc
  cases hmediated with
  | methodType turns =>
    obtain ⟨resolved, hresolves, hresolved⟩ := turns descriptor hdescriptor
    exact ⟨resolved, hresolves, _, hat, hresolved⟩
  | other _ _ noType => exact absurd rfl (noType descriptorIndex)

theorem constantAt {index : ConstantIndex} {constant : Constant}
    (hc : file.pool.constantAt index = .ok constant) (noClass : ∀ name, constant ≠ .classRef name)
    (noPair : ∀ name descriptor, constant ≠ .nameAndType name descriptor)
    (noType : ∀ descriptor, constant ≠ .methodType descriptor) : confined.pool.constantAt index = .ok constant := by
  obtain ⟨constant', hat, hmediated⟩ := h.constants index constant hc
  cases hmediated with
  | classRef _ => exact absurd rfl (noClass _)
  | nameAndType _ => exact absurd rfl (noPair _ _)
  | methodType _ => exact absurd rfl (noType _)
  | other => exact hat

end ClassMediated

/-! ## An example -/

open Resolver (exampleResolver verdict_exampleResolver)

section Example

/-- A class of the sandbox `team1` with a field of the type `Map`, and a reference to the field. -/
def exampleBytes : Bytes :=
  [0xCA, 0xFE, 0xBA, 0xBE, 0, 0, 0, 52, 0, 7,
    1, 0, 7, 0x74, 0x65, 0x61, 0x6D, 0x31, 0x2F, 0x41,
    7, 0, 1,
    1, 0, 1, 0x78,
    1, 0, 15, 0x4C, 0x6A, 0x61, 0x76, 0x61, 0x2F, 0x75, 0x74, 0x69, 0x6C, 0x2F, 0x4D, 0x61, 0x70, 0x3B,
    12, 0, 3, 0, 4,
    9, 0, 2, 0, 5,
    0, 0x21, 0, 2, 0, 0, 0, 0, 0, 1, 0, 0, 0, 3, 0, 4, 0, 0, 0, 0, 0, 0]

def examplePool : ConstantPool :=
  [.utf8 "team1/A", .classRef 1, .utf8 "x", .utf8 "Ljava/util/Map;", .nameAndType 3 4,
    .fieldRef 2 5].foldl store empty

def exampleField : Field := ⟨.ofBits 0, 3, 4, []⟩

def exampleClass : ClassFile := ⟨⟨0, 52⟩, examplePool, .ofBits 0x21, 2, none, [], [exampleField], [], []⟩

/-- The pool with the new descriptor of the field. -/
def extendedPool : ConstantPool := examplePool.store (.utf8 "Lsandboxed/java/util/Map;")

/-- The pool in which the reference has the new descriptor too. -/
def confinedPool : ConstantPool := extendedPool.exchange 5 (.nameAndType 3 7)

def confinedField : Field := ⟨.ofBits 0, 3, 7, []⟩

def confinedClass : ClassFile := { exampleClass with pool := confinedPool, fields := [confinedField] }

theorem parse_exampleBytes : ClassFile.parse exampleBytes = .ok exampleClass := by with_unfolding_all rfl

variable (enforces : Bool)

theorem outcome_resolveClass_example :
    outcome ((exampleResolver enforces).resolveClass "team1/A") .none = (.ok "team1/A", .none) := by
  rw [Resolver.resolveClass_eq, Resolver.verdict_of_kept (by decide) (by cases enforces <;> decide)]
  rfl

theorem outcome_resolveClass_map :
    outcome ((exampleResolver enforces).resolveClass "java/util/Map") .none =
      (.ok "sandboxed/java/util/Map", .none) := by
  rw [Resolver.resolveClass_eq, verdict_exampleResolver]
  rfl

theorem outcome_resolveDescriptor_example :
    outcome ((exampleResolver enforces).resolveDescriptor "Ljava/util/Map;") .none =
      (.ok "Lsandboxed/java/util/Map;", .none) := by
  have htext : "Ljava/util/Map;" = objectArray 0 "java/util/Map" := by decide
  rw [htext, Resolver.resolveDescriptor_objectArray _ 0 (by decide), outcome_bind, outcome_resolveClass_map]
  rfl

/-- The editor after the header, which only settles the class itself. -/
def headedEditor : PoolEditor := ⟨examplePool, Std.HashSet.insert ∅ 2⟩

theorem outcome_confineHeader_example :
    outcome (((exampleResolver enforces).confineHeader exampleClass).run ⟨examplePool, ∅⟩) .none =
      (.ok ([], headedEditor), .none) := by
  have hheader : exampleClass.header = .ok ⟨"team1/A", none, [], none⟩ := by with_unfolding_all rfl
  have hthis : examplePool.classNameAt 2 = .ok "team1/A" := by with_unfolding_all rfl
  have hresolves : outcome ((exampleResolver enforces).resolveClassHeader ⟨"team1/A", none, [], none⟩) .none =
      (.ok ⟨"team1/A", none, [], none⟩, .none) := by
    rw [Resolver.resolveClassHeader, outcome_bind, outcome_resolveClass_example]
    rfl
  have hset : outcome ((setClass exampleClass.thisClass "team1/A").run ⟨examplePool, ∅⟩) .none =
      (.ok ((), headedEditor), .none) := by
    simp only [setClass, outcome_run_bind, outcome_run_get, Std.HashSet.contains_empty, Bool.false_eq_true,
      if_false, outcome_run_modify, outcome_run_fromPool, show exampleClass.thisClass = 2 from rfl, hthis, ne_eq,
      not_true_eq_false, outcome_run_pure, headedEditor]
  simp only [Resolver.confineHeader, outcome_run_bind, outcome_run_fromPool, hheader, outcome_run_lift,
    hresolves, hset]
  rfl

theorem not_mem_texts_examplePool : "Lsandboxed/java/util/Map;" ∉ examplePool.texts := by
  simp [examplePool, store, remember, empty]

theorem outcome_text_examplePool :
    outcome (PoolAction.text "Lsandboxed/java/util/Map;") examplePool = (.ok 7, extendedPool) := by
  rw [PoolAction.outcome_text_of_new (Std.HashMap.getElem?_eq_none not_mem_texts_examplePool),
    PoolAction.outcome_append]
  with_unfolding_all rfl

/-- A text is added once. -/
theorem outcome_text_extendedPool :
    outcome (PoolAction.text "Lsandboxed/java/util/Map;") extendedPool = (.ok 7, extendedPool) := by
  have hadded : extendedPool.texts = examplePool.texts.insertIfNew "Lsandboxed/java/util/Map;" 7 := rfl
  refine PoolAction.outcome_text_of_found ?_
  rw [hadded, Std.HashMap.getElem?_insertIfNew, if_pos ⟨beq_self_eq_true _, not_mem_texts_examplePool⟩]

theorem outcome_confineField_example :
    outcome (((exampleResolver enforces).confineField exampleField).run headedEditor) .none =
      (.ok (confinedField, ⟨extendedPool, headedEditor.settled⟩), .none) := by
  have hheader : Member.fieldHeader exampleField headedEditor.pool =
      .ok ⟨.ofBits 0, "x", "Ljava/util/Map;", none⟩ := by with_unfolding_all rfl
  have hresolves : outcome ((exampleResolver enforces).resolveField
      ⟨.ofBits 0, "x", "Ljava/util/Map;", none⟩) .none =
      (.ok ⟨.ofBits 0, "x", "Lsandboxed/java/util/Map;", none⟩, .none) := by
    rw [Resolver.resolveField, outcome_bind, outcome_resolveDescriptor_example]
    cases enforces <;> rfl
  have htext : outcome ((newText exampleField.descriptor "Ljava/util/Map;" "Lsandboxed/java/util/Map;").run
      headedEditor) .none = (.ok (7, ⟨extendedPool, headedEditor.settled⟩), .none) := by
    rw [newText, if_neg (by decide), outcome_run_onPool]
    simp only [headedEditor, outcome_text_examplePool]
  simp only [Resolver.confineField, outcome_run_bind, outcome_run_fromPool, hheader, outcome_run_lift,
    hresolves, htext]
  rfl

/-- The editor at the end, in which the pair of the reference names the new text. -/
def finalEditor : PoolEditor := ⟨confinedPool, headedEditor.settled⟩

theorem outcome_sweep_example :
    outcome ((extendedPool.constants.toList.forM fun (offset, constant) =>
        (exampleResolver enforces).confineConstant (UInt16.ofNat offset) constant).run
      ⟨extendedPool, headedEditor.settled⟩) .none = (.ok ((), finalEditor), .none) := by
  have hclass : outcome (((exampleResolver enforces).confineConstant 2 (.classRef 1)).run
      ⟨extendedPool, headedEditor.settled⟩) .none = (.ok ((), ⟨extendedPool, headedEditor.settled⟩), .none) := by
    have hsettled : headedEditor.settled.contains 2 = true := by simp [headedEditor]
    simp only [Resolver.confineConstant, outcome_run_bind, outcome_run_get, hsettled, if_true, outcome_run_pure]
  have hpair : outcome (((exampleResolver enforces).confineConstant 5 (.nameAndType 3 4)).run
      ⟨extendedPool, headedEditor.settled⟩) .none = (.ok ((), finalEditor), .none) := by
    have hold : extendedPool.textAt 4 = .ok "Ljava/util/Map;" := by with_unfolding_all rfl
    have hnew : outcome ((exampleResolver enforces).resolveAnyDescriptor "Ljava/util/Map;") .none =
        (.ok "Lsandboxed/java/util/Map;", .none) := outcome_resolveDescriptor_example enforces
    have hne : "Ljava/util/Map;" ≠ "Lsandboxed/java/util/Map;" := by decide
    have hreplace : outcome (PoolAction.replace 5 (.nameAndType 3 7)) extendedPool = (.ok (), confinedPool) := by
      with_unfolding_all rfl
    simp only [Resolver.confineConstant, outcome_run_bind, outcome_run_fromPool, hold, outcome_run_lift, hnew,
      if_pos hne, outcome_run_onPool, outcome_text_extendedPool, hreplace, finalEditor]
  have hentries : extendedPool.constants.toList = [(1, .utf8 "team1/A"), (2, .classRef 1), (3, .utf8 "x"),
      (4, .utf8 "Ljava/util/Map;"), (5, .nameAndType 3 4), (6, .fieldRef 2 5),
      (7, .utf8 "Lsandboxed/java/util/Map;")] := rfl
  rw [hentries]
  change outcome (StateT.run (do
    pure ()
    (exampleResolver enforces).confineConstant 2 (.classRef 1)
    pure ()
    pure ()
    (exampleResolver enforces).confineConstant 5 (.nameAndType 3 4)
    pure ()
    pure ()
    pure ()) _) _ = _
  simp only [outcome_run_bind, hclass, hpair, outcome_run_pure]

theorem outcome_confine_example :
    outcome ((exampleResolver enforces).confine exampleClass) .none = (.ok confinedClass, .none) := by
  have hparts : outcome (((exampleResolver enforces).confineParts exampleClass).run ⟨examplePool, ∅⟩) .none =
      (.ok (confinedClass, finalEditor), .none) := by
    simp only [Resolver.confineParts, outcome_run_bind, outcome_confineHeader_example,
      show exampleClass.fields = [exampleField] from rfl, show exampleClass.methods = [] from rfl, List.mapM_cons,
      List.mapM_nil, outcome_confineField_example, outcome_run_pure, outcome_run_get, outcome_sweep_example]
    rfl
  rw [Resolver.confine, outcome_bind, show exampleClass.pool = examplePool from rfl, hparts]
  rfl

end Example

/-- Confining a class that was read from bytes gives one in which all names are mediated. -/
theorem confine_mediates {bytes : Bytes} (hparse : ClassFile.parse bytes = .ok file)
    (hrun : outcome (r.confine file) before = (.ok confined, after)) : Mediates r file confined := by
  have hmediated := classMediated_of_confine (ClassFile.sound_of_parse hparse) hrun
  constructor
  · exact fun index name hname => hmediated.classNameAt hname
  · intro index name descriptor hpair
    obtain ⟨resolved, hresolves, hat⟩ := hmediated.pairAt hpair
    exact ⟨resolved, resolves_ite_of_resolvesAny hresolves, hat⟩
  · exact fun index descriptor htype => hmediated.methodTypeAt htype
  · exact fun index constant hc => hmediated.constantAt hc
  · exact hmediated.fields.imp fun _ _ hfield => hfield.descriptor
  · exact hmediated.methods.imp fun _ _ hmethod => hmethod.descriptor

/-- A field and a reference to it turn into ones with the private copy of the type. -/
theorem confine_mediates_example :
    ClassFile.parse exampleBytes = .ok exampleClass ∧
    outcome ((exampleResolver true).confine exampleClass) .none = (.ok confinedClass, .none) ∧
    Mediates (exampleResolver true) exampleClass confinedClass :=
  ⟨parse_exampleBytes, outcome_confine_example true,
    confine_mediates parse_exampleBytes (outcome_confine_example true)⟩

end ClassSandbox
