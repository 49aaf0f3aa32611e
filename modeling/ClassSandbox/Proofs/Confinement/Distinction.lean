import ClassSandbox.Proofs.Confinement.Linking
import ClassSandbox.Proofs.Confinement.Plain
import ClassSandbox.Proofs.Resolution.Merging

/-!
# Members stay distinct

Members of a class that differ by name or by descriptor still do so when the class is confined, unless their
descriptors mention classes that resolution merges (`confine_distinguishes`). Where they do, confinement may well
make the same member of two (`confine_merges_random`).
-/

namespace ClassSandbox

open ConstantPool Confinement

/-- Two members that differ still do so at the end, unless their descriptors have been merged. -/
def Distinguishes (merge : String → String → Prop) (pool pool' : ConstantPool) {kind : Declared}
    (members members' : List (Member kind)) : Prop :=
  ∀ (position other : Nat) (member otherMember : Member kind) (name descriptor otherName otherDescriptor : String),
    members[position]? = some member → members[other]? = some otherMember →
    pool.Declares member name descriptor → pool.Declares otherMember otherName otherDescriptor →
    (name, descriptor) ≠ (otherName, otherDescriptor) →
      ∃ member' otherMember' descriptor' otherDescriptor',
        members'[position]? = some member' ∧ members'[other]? = some otherMember' ∧
        pool'.Declares member' name descriptor' ∧ pool'.Declares otherMember' otherName otherDescriptor' ∧
        ((name, descriptor') ≠ (otherName, otherDescriptor') ∨ merge descriptor otherDescriptor)

variable {r : Resolver} {file confined : ClassFile} {before after : Findings}

theorem Confinement.MemberMediated.declares {operation : Resolver → String → Resolution String}
    {pool pool' : ConstantPool} {kind : Declared} {member member' : Member kind}
    (h : MemberMediated r operation pool pool' member member') (htexts : pool.KeepsTexts pool')
    {name descriptor : String} (hdeclares : pool.Declares member name descriptor) :
    ∃ resolved, MayGive (operation r descriptor) resolved ∧ pool'.Declares member' name resolved := by
  obtain ⟨resolved, hresolves, hdescriptor⟩ := h.descriptor descriptor hdeclares.2
  refine ⟨resolved, Resolver.mayGive_of_resolves hresolves, ?_, hdescriptor⟩
  rw [h.name]
  exact htexts _ _ hdeclares.1

theorem distinguishes_of_mediated {operation : Resolver → String → Resolution String}
    {merge : String → String → Prop} {pool pool' : ConstantPool} {kind : Declared}
    {members members' : List (Member kind)}
    (hmerged : ∀ {descriptor descriptor' resolved}, descriptor ≠ descriptor' →
      MayGive (operation r descriptor) resolved → MayGive (operation r descriptor') resolved →
        merge descriptor descriptor')
    (h : List.Forall₂ (MemberMediated r operation pool pool') members members') (htexts : pool.KeepsTexts pool') :
    Distinguishes merge pool pool' members members' := by
  intro position other member otherMember name descriptor otherName otherDescriptor hmember hother hdeclares
    hdeclaresOther hdiffer
  obtain ⟨member', hmember', hmediated⟩ := exists_getElem?_of_forall₂ h hmember
  obtain ⟨otherMember', hother', hmediatedOther⟩ := exists_getElem?_of_forall₂ h hother
  obtain ⟨resolved, hresolved, hdeclares'⟩ := hmediated.declares htexts hdeclares
  obtain ⟨otherResolved, hresolvedOther, hdeclaresOther'⟩ := hmediatedOther.declares htexts hdeclaresOther
  refine ⟨member', otherMember', resolved, otherResolved, hmember', hother', hdeclares', hdeclaresOther', ?_⟩
  by_cases hsame : (name, resolved) = (otherName, otherResolved)
  · obtain ⟨rfl, rfl⟩ := Prod.mk.inj hsame
    have hdescriptors : descriptor ≠ otherDescriptor := fun h => hdiffer (by rw [h])
    exact .inr (hmerged hdescriptors hresolved hresolvedOther)
  · exact .inl hsame

/-- Confinement makes the same field or the same method of two only through classes that resolution merges. -/
theorem confine_distinguishes (hseparate : r.settings.Separate) {bytes : Bytes}
    (hparse : ClassFile.parse bytes = .ok file)
    (hrun : outcome (r.confine file) before = (.ok confined, after)) :
    Distinguishes r.FieldsMerge file.pool confined.pool file.fields confined.fields ∧
      Distinguishes r.MethodsMerge file.pool confined.pool file.methods confined.methods := by
  have hmediated := classMediated_of_confine (ClassFile.sound_of_parse hparse) hrun
  exact ⟨distinguishes_of_mediated (Resolver.fieldsMerge_of_resolveDescriptor hseparate) hmediated.fields
      hmediated.texts,
    distinguishes_of_mediated (Resolver.methodsMerge_of_resolveMethodDescriptor hseparate) hmediated.methods
      hmediated.texts⟩

/-! ## An example -/

open Resolver (exampleResolver)

section Example

/-- A class with two fields of one name, which have as their types the two sources of randomness. -/
def twinBytes : Bytes :=
  [0xCA, 0xFE, 0xBA, 0xBE, 0, 0, 0, 52, 0, 6,
    1, 0, 7, 0x74, 0x65, 0x61, 0x6D, 0x31, 0x2F, 0x41,
    7, 0, 1,
    1, 0, 1, 0x78,
    1, 0, 28, 0x4C, 0x6A, 0x61, 0x76, 0x61, 0x2F, 0x73, 0x65, 0x63, 0x75, 0x72, 0x69, 0x74, 0x79, 0x2F, 0x53,
    0x65, 0x63, 0x75, 0x72, 0x65, 0x52, 0x61, 0x6E, 0x64, 0x6F, 0x6D, 0x3B,
    1, 0, 18, 0x4C, 0x6A, 0x61, 0x76, 0x61, 0x2F, 0x75, 0x74, 0x69, 0x6C, 0x2F, 0x52, 0x61, 0x6E, 0x64, 0x6F,
    0x6D, 0x3B,
    0, 0x21, 0, 2, 0, 0, 0, 0, 0, 2, 0, 0, 0, 3, 0, 4, 0, 0, 0, 0, 0, 3, 0, 5, 0, 0, 0, 0, 0, 0]

def twinPool : ConstantPool :=
  [.utf8 "team1/A", .classRef 1, .utf8 "x", .utf8 "Ljava/security/SecureRandom;",
    .utf8 "Ljava/util/Random;"].foldl store empty

def secureField : Field := ⟨.ofBits 0, 3, 4, []⟩

def randomField : Field := ⟨.ofBits 0, 3, 5, []⟩

def twinClass : ClassFile :=
  ⟨⟨0, 52⟩, twinPool, .ofBits 0x21, 2, none, [], [secureField, randomField], [], []⟩

def mergedPool : ConstantPool := twinPool.store (.utf8 "Lsandboxed/java/util/Random;")

def mergedField : Field := ⟨.ofBits 0, 3, 6, []⟩

def mergedClass : ClassFile := { twinClass with pool := mergedPool, fields := [mergedField, mergedField] }

theorem parse_twinBytes : ClassFile.parse twinBytes = .ok twinClass := by with_unfolding_all rfl

theorem outcome_resolveClass_random : ∀ name ∈ ["java/security/SecureRandom", "java/util/Random"],
    outcome ((exampleResolver false).resolveClass name) .none = (.ok "sandboxed/java/util/Random", .none) := by
  intro name hmem
  refine Resolver.outcome_resolveClass_of_verdict rfl ?_
  simp only [List.mem_cons, List.not_mem_nil, or_false] at hmem
  rcases hmem with rfl | rfl <;>
    rw [Resolver.verdict_eq_freshVerdict (by decide) (by decide) (by decide) (by decide)] <;> decide

theorem outcome_resolveDescriptor_random :
    ∀ descriptor ∈ ["Ljava/security/SecureRandom;", "Ljava/util/Random;"],
      outcome ((exampleResolver false).resolveDescriptor descriptor) .none =
        (.ok "Lsandboxed/java/util/Random;", .none) := by
  have hclass : ∀ name ∈ ["java/security/SecureRandom", "java/util/Random"],
      outcome ((exampleResolver false).resolveDescriptor (String.ofList ('L' :: name.toList ++ [';']))) .none =
        (.ok "Lsandboxed/java/util/Random;", .none) := fun name hmem => by
    have hne : name ≠ "" := by
      rintro rfl
      simp at hmem
    rw [Resolver.outcome_resolveDescriptor_class hne (outcome_resolveClass_random name hmem)]
    rfl
  intro descriptor hmem
  simp only [List.mem_cons, List.not_mem_nil, or_false] at hmem
  rcases hmem with rfl | rfl
  · exact hclass "java/security/SecureRandom" (by simp)
  · exact hclass "java/util/Random" (by simp)

theorem outcome_text_twinPool :
    outcome (PoolAction.text "Lsandboxed/java/util/Random;") twinPool = (.ok 6, mergedPool) := by
  have hnew : twinPool.texts["Lsandboxed/java/util/Random;"]? = none :=
    Std.HashMap.getElem?_eq_none (by simp [twinPool, store, remember, empty])
  rw [PoolAction.outcome_text_of_new hnew, PoolAction.outcome_append]
  with_unfolding_all rfl

theorem outcome_text_mergedPool :
    outcome (PoolAction.text "Lsandboxed/java/util/Random;") mergedPool = (.ok 6, mergedPool) := by
  have hadded : mergedPool.texts = twinPool.texts.insertIfNew "Lsandboxed/java/util/Random;" 6 := rfl
  refine PoolAction.outcome_text_of_found ?_
  rw [hadded, Std.HashMap.getElem?_insertIfNew,
    if_pos ⟨beq_self_eq_true _, by simp [twinPool, store, remember, empty]⟩]

/-- Either field gets the same descriptor, no matter which of the two comes first. -/
theorem outcome_confineField_random {field : Field} {pool : ConstantPool} {descriptor : String}
    (hheader : field.fieldHeader pool = .ok ⟨.ofBits 0, "x", descriptor, none⟩)
    (hattributes : field.attributes = []) (hname : field.name = 3)
    (hmem : descriptor ∈ ["Ljava/security/SecureRandom;", "Ljava/util/Random;"])
    (htext : outcome (PoolAction.text "Lsandboxed/java/util/Random;") pool = (.ok 6, mergedPool))
    (settled : Std.HashSet ConstantIndex) :
    outcome (((exampleResolver false).confineField field).run ⟨pool, settled⟩) .none =
      (.ok (mergedField, ⟨mergedPool, settled⟩), .none) := by
  have hnew : outcome ((newText field.descriptor descriptor "Lsandboxed/java/util/Random;").run ⟨pool, settled⟩)
      .none = (.ok (6, ⟨mergedPool, settled⟩), .none) := by
    have hne : descriptor ≠ "Lsandboxed/java/util/Random;" := by
      rintro rfl
      simp at hmem
    rw [newText, if_neg hne, outcome_run_onPool]
    simp only [htext]
  have hsigned : outcome ((setSignature field.attributes none none).run ⟨mergedPool, settled⟩) .none =
      (.ok ([], ⟨mergedPool, settled⟩), .none) := by
    rw [setSignature, if_pos rfl, hattributes, outcome_run_pure]
  have hsignature : outcome ((exampleResolver false).resolveFieldSignature none) .none = (.ok none, .none) := rfl
  have hfield : outcome (((exampleResolver false).confineField field).run ⟨pool, settled⟩) .none =
      (.ok (⟨(exampleResolver false).keptFieldFlags (.ofBits 0), field.name, 6, []⟩, ⟨mergedPool, settled⟩), .none) :=
    Resolver.outcome_confineField_of ⟨.ofBits 0, "x", descriptor, none⟩ hheader
      (outcome_resolveDescriptor_random descriptor hmem) hsignature hnew hsigned
  rw [hfield, hname]
  rfl

theorem outcome_confine_twins :
    outcome ((exampleResolver false).confine twinClass) .none = (.ok mergedClass, .none) := by
  have hfields : outcome ((twinClass.fields.mapM (exampleResolver false).confineField).run
      ⟨twinPool, Std.HashSet.insert ∅ 2⟩) .none =
        (.ok ([mergedField, mergedField], ⟨mergedPool, Std.HashSet.insert ∅ 2⟩), .none) := by
    have hsecure : secureField.fieldHeader twinPool =
        .ok ⟨.ofBits 0, "x", "Ljava/security/SecureRandom;", none⟩ := by with_unfolding_all rfl
    have hrandom : randomField.fieldHeader mergedPool =
        .ok ⟨.ofBits 0, "x", "Ljava/util/Random;", none⟩ := by with_unfolding_all rfl
    simp only [show twinClass.fields = [secureField, randomField] from rfl, List.mapM_cons, List.mapM_nil,
      outcome_run_bind, outcome_confineField_random hsecure rfl rfl (by simp) outcome_text_twinPool,
      outcome_confineField_random hrandom rfl rfl (by simp) outcome_text_mergedPool, outcome_run_pure]
  have hthis : twinClass.thisName = .ok "team1/A" := by with_unfolding_all rfl
  exact Resolver.outcome_confine_plain ⟨rfl, rfl, rfl, rfl⟩ hthis
    (Resolver.verdict_of_kept (by decide) (by decide)) hfields (by decide)

end Example

/-- Two fields with different types become the same one. -/
theorem confine_merges_random :
    ClassFile.parse twinBytes = .ok twinClass ∧
      outcome ((exampleResolver false).confine twinClass) .none = (.ok mergedClass, .none) ∧
      twinClass.fields = [secureField, randomField] ∧
      twinClass.pool.Declares secureField "x" "Ljava/security/SecureRandom;" ∧
      twinClass.pool.Declares randomField "x" "Ljava/util/Random;" ∧
      mergedClass.fields = [mergedField, mergedField] ∧
      mergedClass.pool.Declares mergedField "x" "Lsandboxed/java/util/Random;" :=
  ⟨parse_twinBytes, outcome_confine_twins, rfl, ⟨by with_unfolding_all rfl, by with_unfolding_all rfl⟩,
    ⟨by with_unfolding_all rfl, by with_unfolding_all rfl⟩, rfl,
    ⟨by with_unfolding_all rfl, by with_unfolding_all rfl⟩⟩

/-- The two fields are the same afterwards, so it has to be their types that were merged. -/
theorem confine_distinguishes_random :
    (exampleResolver false).settings.Separate ∧ ClassFile.parse twinBytes = .ok twinClass ∧
      outcome ((exampleResolver false).confine twinClass) .none = (.ok mergedClass, .none) ∧
      Distinguishes (exampleResolver false).FieldsMerge twinPool mergedPool [secureField, randomField]
        [mergedField, mergedField] ∧
      (exampleResolver false).FieldsMerge "Ljava/security/SecureRandom;" "Ljava/util/Random;" := by
  have hseparate : (exampleResolver false).settings.Separate := Settings.separate_standard .strict
  have hfields := (confine_distinguishes hseparate parse_twinBytes outcome_confine_twins).1
  refine ⟨hseparate, parse_twinBytes, outcome_confine_twins, hfields, ?_⟩
  have hsecure : twinPool.Declares secureField "x" "Ljava/security/SecureRandom;" :=
    ⟨by with_unfolding_all rfl, by with_unfolding_all rfl⟩
  have hrandom : twinPool.Declares randomField "x" "Ljava/util/Random;" :=
    ⟨by with_unfolding_all rfl, by with_unfolding_all rfl⟩
  obtain ⟨_, _, descriptor, descriptor', hfield, hfield', hdeclares, hdeclares', hdiffer | hmerged⟩ :=
    hfields 0 1 secureField randomField "x" _ "x" _ rfl rfl hsecure hrandom (by decide)
  · cases hfield
    cases hfield'
    have hsame : descriptor = descriptor' := Except.ok.inj (hdeclares.2.symm.trans hdeclares'.2)
    exact absurd (by rw [hsame]) hdiffer
  · exact hmerged

end ClassSandbox
