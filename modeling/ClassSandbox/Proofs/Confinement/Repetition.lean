import ClassSandbox.Proofs.Confinement.Plain
import ClassSandbox.Proofs.Confinement.Settling

/-!
# Confining a class again

A class that comes out of confinement is at rest, so to confine it again changes nothing, or blames a name that
only resolved names lead to (`confine_repeats`). Such names are met where a signature selects a nested class from a
class that has a substitute: the first time the nested class is looked up by the original name, and after that by
the name of the substitute (`confine_refusesConfined`).
-/

namespace ClassSandbox

open ConstantPool Confinement

/-- With standard settings, a confined class stays as it is when it is confined again, unless a class is refused
that is nested in a substitute, or in a resolved class of a sandbox that overlaps with the private copies. -/
theorem confine_repeats {r : Resolver} {bytes : Bytes} {file confined : ClassFile} {before after : Findings}
    (hstandard : r.settings = .standard) (hparse : ClassFile.parse bytes = .ok file)
    (hrun : outcome (r.confine file) before = (.ok confined, after)) (findings : Findings) :
    (outcome (r.confine confined) findings).1 = .ok confined ∨
      ∃ offender, r.BlamesLater offender ∧
        (outcome (r.confine confined) findings).1 = .error (.violation ⟨offender, r.sandbox.text⟩) := by
  have hmode : r.settings.mode = .strict := by rw [hstandard]; rfl
  have hplain : r.settings.Plain := by
    rw [hstandard]
    exact Settings.plain_standard .strict
  obtain ⟨hsound, hrest⟩ := atRest_of_confine hmode hplain hparse hrun
  exact Resolver.rests_confine hsound hrest findings

/-! ## An example -/

section Example

/-- The resolver of a sandbox that may use the classes of the language. -/
def languageResolver : Resolver :=
  { Resolver.exampleResolver true with policy := .ofLists ["java/lang"] [] }

/-- A class with a field whose type is nested in a class that has a substitute. -/
def nestedBytes : Bytes :=
  [0xCA, 0xFE, 0xBA, 0xBE, 0, 0, 0, 52, 0, 7,
    1, 0, 7, 0x74, 0x65, 0x61, 0x6D, 0x31, 0x2F, 0x41,
    7, 0, 1,
    1, 0, 1, 0x78,
    1, 0, 25, 0x4C, 0x6A, 0x61, 0x76, 0x61, 0x2F, 0x6C, 0x61, 0x6E, 0x67, 0x2F, 0x53, 0x79, 0x73, 0x74, 0x65,
    0x6D, 0x24, 0x4C, 0x6F, 0x67, 0x67, 0x65, 0x72, 0x3B,
    1, 0, 9, 0x53, 0x69, 0x67, 0x6E, 0x61, 0x74, 0x75, 0x72, 0x65,
    1, 0, 25, 0x4C, 0x6A, 0x61, 0x76, 0x61, 0x2F, 0x6C, 0x61, 0x6E, 0x67, 0x2F, 0x53, 0x79, 0x73, 0x74, 0x65,
    0x6D, 0x2E, 0x4C, 0x6F, 0x67, 0x67, 0x65, 0x72, 0x3B,
    0, 0x21, 0, 2, 0, 0, 0, 0, 0, 1, 0, 0, 0, 3, 0, 4, 0, 1, 0, 5, 0, 0, 0, 2, 0, 6, 0, 0, 0, 0]

def nestedPool : ConstantPool :=
  [.utf8 "team1/A", .classRef 1, .utf8 "x", .utf8 "Ljava/lang/System$Logger;", .utf8 "Signature",
    .utf8 "Ljava/lang/System.Logger;"].foldl store empty

def nestedField : Field := ⟨.ofBits 0, 3, 4, [⟨5, Encoder.u16 6⟩]⟩

def nestedClass : ClassFile := ⟨⟨0, 52⟩, nestedPool, .ofBits 0x21, 2, none, [], [nestedField], [], []⟩

def substitutedPool : ConstantPool :=
  nestedPool.store (.utf8 "Lbattlecode/engine/instrumenter/lang/System.Logger;")

def substitutedField : Field := ⟨.ofBits 0, 3, 4, [⟨5, Encoder.u16 7⟩]⟩

def substitutedClass : ClassFile := { nestedClass with pool := substitutedPool, fields := [substitutedField] }

theorem parse_nestedBytes : ClassFile.parse nestedBytes = .ok nestedClass := by with_unfolding_all rfl

theorem verdict_languageResolver :
    languageResolver.verdict "java/lang/System" = ⟨"battlecode/engine/instrumenter/lang/System", none⟩ ∧
      languageResolver.verdict "java/lang/System$Logger" = ⟨"java/lang/System$Logger", none⟩ ∧
      languageResolver.verdict "battlecode/engine/instrumenter/lang/System" =
        ⟨"battlecode/engine/instrumenter/lang/System", none⟩ ∧
      languageResolver.verdict "battlecode/engine/instrumenter/lang/System$Logger" =
        ⟨"forbidden/battlecode/engine/instrumenter/lang/System$Logger",
          some "battlecode/engine/instrumenter/lang/System$Logger"⟩ := by
  have hallowed : languageResolver.policy.allows "java/lang/System$Logger" = true :=
    (Policy.allows_ofLists ["java/lang"] [] ⟨"java/lang/System$Logger", by decide⟩).trans (by decide)
  have hdenied : languageResolver.policy.allows "battlecode/engine/instrumenter/lang/System$Logger" = false :=
    (Policy.allows_ofLists ["java/lang"] []
      ⟨"battlecode/engine/instrumenter/lang/System$Logger", by decide⟩).trans (by decide)
  refine ⟨?_, ?_, Resolver.verdict_of_kept (by decide) (by decide), ?_⟩
  · rw [Resolver.verdict_eq_freshVerdict (by decide) (by decide) (by decide) (by decide)]
    decide
  · rw [Resolver.verdict_eq_freshVerdict (by decide) (by decide) (by decide) (by decide), Resolver.freshVerdict,
      hallowed]
    decide
  · rw [Resolver.verdict_eq_freshVerdict (by decide) (by decide) (by decide) (by decide), Resolver.freshVerdict,
      hdenied]
    decide

/-- The first time only the class around the nested one is replaced in the signature. -/
theorem outcome_resolveFieldSignature_logger :
    outcome (languageResolver.resolveFieldSignature (some "Ljava/lang/System.Logger;")) .none =
      (.ok (some "Lbattlecode/engine/instrumenter/lang/System.Logger;"), .none) := by
  have houter : outcome (languageResolver.resolveClass "java/lang/System") .none =
      (.ok "battlecode/engine/instrumenter/lang/System", .none) :=
    Resolver.outcome_resolveClass_of_verdict rfl verdict_languageResolver.1
  have hinner : outcome (languageResolver.resolveClass (nestedName "java/lang/System" "Logger")) .none =
      (.ok "java/lang/System$Logger", .none) :=
    Resolver.outcome_resolveClass_of_verdict rfl verdict_languageResolver.2.1
  have hname : nestedName? "battlecode/engine/instrumenter/lang/System" "java/lang/System$Logger" = none := by decide
  rw [show "Ljava/lang/System.Logger;" =
      String.ofList ('L' :: "java/lang/System".toList ++ '.' :: "Logger".toList ++ [';']) by decide,
    Resolver.resolveFieldSignature_nested (by decide) (by decide)]
  simp only [outcome_bind, houter, hinner, outcome_pure, hname]
  rfl

/-- The second time the nested class is looked up in the package of the substitute. -/
theorem outcome_resolveFieldSignature_substituted :
    outcome (languageResolver.resolveFieldSignature (some "Lbattlecode/engine/instrumenter/lang/System.Logger;"))
        .none =
      (.error (.violation ⟨"battlecode/engine/instrumenter/lang/System$Logger", "team1"⟩), .none) := by
  have houter : outcome (languageResolver.resolveClass "battlecode/engine/instrumenter/lang/System") .none =
      (.ok "battlecode/engine/instrumenter/lang/System", .none) :=
    Resolver.outcome_resolveClass_of_kept verdict_languageResolver.2.2.1
  have hinner : outcome
      (languageResolver.resolveClass (nestedName "battlecode/engine/instrumenter/lang/System" "Logger")) .none =
      (.error (.violation ⟨"battlecode/engine/instrumenter/lang/System$Logger", "team1"⟩), .none) := by
    rw [Resolver.resolveClass_eq, show nestedName "battlecode/engine/instrumenter/lang/System" "Logger" =
      "battlecode/engine/instrumenter/lang/System$Logger" by decide, verdict_languageResolver.2.2.2, outcome_bind,
      Resolver.blame, Resolver.outcome_refuse_strict _ rfl]
    rfl
  rw [show "Lbattlecode/engine/instrumenter/lang/System.Logger;" = String.ofList
      ('L' :: "battlecode/engine/instrumenter/lang/System".toList ++ '.' :: "Logger".toList ++ [';']) by decide,
    Resolver.resolveFieldSignature_nested (by decide) (by decide)]
  simp only [outcome_bind, houter, hinner]

theorem outcome_resolveDescriptor_logger :
    outcome (languageResolver.resolveDescriptor "Ljava/lang/System$Logger;") .none =
      (.ok "Ljava/lang/System$Logger;", .none) := by
  rw [show "Ljava/lang/System$Logger;" = String.ofList ('L' :: "java/lang/System$Logger".toList ++ [';']) by decide]
  exact Resolver.outcome_resolveDescriptor_class (by decide)
    (Resolver.outcome_resolveClass_of_kept verdict_languageResolver.2.1)

theorem outcome_text_nestedPool :
    outcome (PoolAction.text "Lbattlecode/engine/instrumenter/lang/System.Logger;") nestedPool =
        (.ok 7, substitutedPool) ∧
      outcome (PoolAction.text signatureKind.name) substitutedPool = (.ok 5, substitutedPool) := by
  constructor
  · have hnew : nestedPool.texts["Lbattlecode/engine/instrumenter/lang/System.Logger;"]? = none :=
      Std.HashMap.getElem?_eq_none (by simp [nestedPool, store, remember, empty])
    rw [PoolAction.outcome_text_of_new hnew, PoolAction.outcome_append]
    with_unfolding_all rfl
  · have htexts : substitutedPool.texts = ((((((∅ : Std.HashMap String ConstantIndex).insertIfNew "team1/A"
        1).insertIfNew "x" 3).insertIfNew "Ljava/lang/System$Logger;" 4).insertIfNew "Signature" 5).insertIfNew
          "Ljava/lang/System.Logger;" 6).insertIfNew "Lbattlecode/engine/instrumenter/lang/System.Logger;" 7 := rfl
    refine PoolAction.outcome_text_of_found ?_
    simp only [htexts, Std.HashMap.getElem?_insertIfNew]
    simp [signatureKind]

theorem outcome_confineField_nested (settled : Std.HashSet ConstantIndex) :
    outcome ((languageResolver.confineField nestedField).run ⟨nestedPool, settled⟩) .none =
      (.ok (substitutedField, ⟨substitutedPool, settled⟩), .none) := by
  have hheader : nestedField.fieldHeader nestedPool =
      .ok ⟨.ofBits 0, "x", "Ljava/lang/System$Logger;", some "Ljava/lang/System.Logger;"⟩ := by
    with_unfolding_all rfl
  have htext : outcome ((newText 4 "Ljava/lang/System$Logger;" "Ljava/lang/System$Logger;").run
      ⟨nestedPool, settled⟩) .none = (.ok (4, ⟨nestedPool, settled⟩), .none) := by
    rw [newText, if_pos rfl, outcome_run_pure]
  have hsignature : nestedPool.textAt 5 = .ok signatureKind.name := by with_unfolding_all rfl
  have hset : outcome ((setSignature nestedField.attributes (some "Ljava/lang/System.Logger;")
      (some "Lbattlecode/engine/instrumenter/lang/System.Logger;")).run ⟨nestedPool, settled⟩) .none =
        (.ok (substitutedField.attributes, ⟨substitutedPool, settled⟩), .none) :=
    Resolver.outcome_setSignature_head hsignature (by decide) outcome_text_nestedPool.1
      outcome_text_nestedPool.2
  have hfield : outcome ((languageResolver.confineField nestedField).run ⟨nestedPool, settled⟩) .none =
      (.ok (⟨languageResolver.keptFieldFlags (.ofBits 0), 3, 4, substitutedField.attributes⟩,
        ⟨substitutedPool, settled⟩), .none) :=
    Resolver.outcome_confineField_of
      ⟨.ofBits 0, "x", "Ljava/lang/System$Logger;", some "Ljava/lang/System.Logger;"⟩ hheader
      outcome_resolveDescriptor_logger outcome_resolveFieldSignature_logger htext hset
  rw [hfield]
  rfl

theorem outcome_confineField_substituted (settled : Std.HashSet ConstantIndex) :
    outcome ((languageResolver.confineField substitutedField).run ⟨substitutedPool, settled⟩) .none =
      (.error (.violation ⟨"battlecode/engine/instrumenter/lang/System$Logger", "team1"⟩), .none) := by
  have hheader : substitutedField.fieldHeader substitutedPool = .ok ⟨.ofBits 0, "x", "Ljava/lang/System$Logger;",
      some "Lbattlecode/engine/instrumenter/lang/System.Logger;"⟩ := by with_unfolding_all rfl
  simp only [Resolver.confineField, outcome_run_bind, outcome_run_fromPool, hheader, outcome_run_lift,
    Resolver.resolveField, outcome_bind, outcome_resolveDescriptor_logger, outcome_resolveFieldSignature_substituted]

theorem verdict_languageResolver_thisName : languageResolver.verdict "team1/A" = ⟨"team1/A", none⟩ :=
  Resolver.verdict_of_kept (by decide) (by decide)

theorem outcome_confine_nested :
    outcome (languageResolver.confine nestedClass) .none = (.ok substitutedClass, .none) := by
  have hfields : outcome ((nestedClass.fields.mapM languageResolver.confineField).run
      ⟨nestedPool, Std.HashSet.insert ∅ 2⟩) .none =
        (.ok ([substitutedField], ⟨substitutedPool, Std.HashSet.insert ∅ 2⟩), .none) := by
    simp only [show nestedClass.fields = [nestedField] from rfl, List.mapM_cons, List.mapM_nil,
      outcome_run_bind, outcome_confineField_nested, outcome_run_pure]
  exact Resolver.outcome_confine_plain ⟨rfl, rfl, rfl, rfl⟩ (by with_unfolding_all rfl)
    verdict_languageResolver_thisName hfields (by decide)

/-- A class with a field whose type itself has a substitute. -/
def channelBytes : Bytes :=
  [0xCA, 0xFE, 0xBA, 0xBE, 0, 0, 0, 52, 0, 5,
    1, 0, 7, 0x74, 0x65, 0x61, 0x6D, 0x31, 0x2F, 0x41,
    7, 0, 1,
    1, 0, 1, 0x78,
    1, 0, 18, 0x4C, 0x6A, 0x61, 0x76, 0x61, 0x2F, 0x6C, 0x61, 0x6E, 0x67, 0x2F, 0x53, 0x79, 0x73, 0x74, 0x65,
    0x6D, 0x3B,
    0, 0x21, 0, 2, 0, 0, 0, 0, 0, 1, 0, 0, 0, 3, 0, 4, 0, 0, 0, 0, 0, 0]

def channelPool : ConstantPool :=
  [.utf8 "team1/A", .classRef 1, .utf8 "x", .utf8 "Ljava/lang/System;"].foldl store empty

def channelClass : ClassFile :=
  ⟨⟨0, 52⟩, channelPool, .ofBits 0x21, 2, none, [], [⟨.ofBits 0, 3, 4, []⟩], [], []⟩

def redirectedPool : ConstantPool := channelPool.store (.utf8 "Lbattlecode/engine/instrumenter/lang/System;")

def redirectedClass : ClassFile := { channelClass with pool := redirectedPool, fields := [⟨.ofBits 0, 3, 5, []⟩] }

theorem parse_channelBytes : ClassFile.parse channelBytes = .ok channelClass := by with_unfolding_all rfl

/-- The class in the descriptor is replaced, and the substitute stays. -/
theorem outcome_resolveDescriptor_channel :
    ∀ descriptor ∈ ["Ljava/lang/System;", "Lbattlecode/engine/instrumenter/lang/System;"],
      outcome (languageResolver.resolveDescriptor descriptor) .none =
        (.ok "Lbattlecode/engine/instrumenter/lang/System;", .none) := by
  have hclass : ∀ name ∈ ["java/lang/System", "battlecode/engine/instrumenter/lang/System"],
      outcome (languageResolver.resolveDescriptor (String.ofList ('L' :: name.toList ++ [';']))) .none =
        (.ok "Lbattlecode/engine/instrumenter/lang/System;", .none) := fun name hmem => by
    obtain ⟨hchannel, -, hsubstitute, -⟩ := verdict_languageResolver
    have hresolves : outcome (languageResolver.resolveClass name) .none =
        (.ok "battlecode/engine/instrumenter/lang/System", .none) := by
      rcases List.mem_pair.1 hmem with rfl | rfl
      · exact Resolver.outcome_resolveClass_of_verdict rfl hchannel
      · exact Resolver.outcome_resolveClass_of_kept hsubstitute
    have hne : name ≠ "" := by
      rintro rfl
      simp at hmem
    rw [Resolver.outcome_resolveDescriptor_class hne hresolves]
    rfl
  intro descriptor hmem
  rcases List.mem_pair.1 hmem with rfl | rfl
  · exact hclass "java/lang/System" (by simp)
  · exact hclass "battlecode/engine/instrumenter/lang/System" (by simp)

theorem outcome_text_channelPool :
    outcome (PoolAction.text "Lbattlecode/engine/instrumenter/lang/System;") channelPool =
      (.ok 5, redirectedPool) := by
  have hnew : channelPool.texts["Lbattlecode/engine/instrumenter/lang/System;"]? = none :=
    Std.HashMap.getElem?_eq_none (by simp [channelPool, store, remember, empty])
  rw [PoolAction.outcome_text_of_new hnew, PoolAction.outcome_append]
  with_unfolding_all rfl

/-- The field gets the descriptor of the substitute, no matter whether it has it already. -/
theorem outcome_confine_field {file : ClassFile} {index : ConstantIndex} {descriptor : String} (hplain : file.Plain)
    (hclass : file.thisClass = 2) (hthis : file.thisName = .ok "team1/A")
    (hfields : file.fields = [⟨.ofBits 0, 3, index, []⟩])
    (hheader : Member.fieldHeader (⟨.ofBits 0, 3, index, []⟩ : Field) file.pool =
      .ok ⟨.ofBits 0, "x", descriptor, none⟩)
    (hmem : descriptor ∈ ["Ljava/lang/System;", "Lbattlecode/engine/instrumenter/lang/System;"])
    (htext : ∀ settled, outcome ((newText index descriptor "Lbattlecode/engine/instrumenter/lang/System;").run
      ⟨file.pool, settled⟩) .none = (.ok (5, ⟨redirectedPool, settled⟩), .none)) :
    outcome (languageResolver.confine file) .none =
      (.ok { file with pool := redirectedPool, fields := [⟨.ofBits 0, 3, 5, []⟩] }, .none) := by
  have hset (settled : Std.HashSet ConstantIndex) :
      outcome ((setSignature [] none none).run ⟨redirectedPool, settled⟩) .none =
        (.ok ([], ⟨redirectedPool, settled⟩), .none) := by
    rw [setSignature, if_pos rfl, outcome_run_pure]
  have hfield (settled : Std.HashSet ConstantIndex) :
      outcome ((languageResolver.confineField ⟨.ofBits 0, 3, index, []⟩).run ⟨file.pool, settled⟩) .none =
        (.ok (⟨languageResolver.keptFieldFlags (.ofBits 0), 3, 5, []⟩, ⟨redirectedPool, settled⟩), .none) :=
    Resolver.outcome_confineField_of ⟨.ofBits 0, "x", descriptor, none⟩ hheader
      (outcome_resolveDescriptor_channel descriptor hmem) rfl (htext settled) (hset settled)
  have hflags : languageResolver.keptFieldFlags (.ofBits 0) = .ofBits 0 := rfl
  refine Resolver.outcome_confine_plain hplain hthis verdict_languageResolver_thisName ?_ ?_
  · simp only [hfields, List.mapM_cons, List.mapM_nil, outcome_run_bind, hfield, hflags, outcome_run_pure]
  · rw [hclass]
    decide

theorem outcome_confine_channel :
    outcome (languageResolver.confine channelClass) .none = (.ok redirectedClass, .none) := by
  refine outcome_confine_field ⟨rfl, rfl, rfl, rfl⟩ rfl (by with_unfolding_all rfl) rfl (by with_unfolding_all rfl)
    (by simp) fun settled => ?_
  rw [newText, if_neg (by decide), outcome_run_onPool]
  simp only [show channelClass.pool = channelPool from rfl, outcome_text_channelPool]

/-- The class stays as it is from then on. -/
theorem outcome_confine_redirected :
    outcome (languageResolver.confine redirectedClass) .none = (.ok redirectedClass, .none) := by
  refine outcome_confine_field ⟨rfl, rfl, rfl, rfl⟩ rfl (by with_unfolding_all rfl) rfl (by with_unfolding_all rfl)
    (by simp) fun settled => ?_
  rw [newText, if_pos rfl, outcome_run_pure]
  rfl

end Example

/-- The class that comes out of confinement is refused when it is confined once more. -/
theorem confine_refusesConfined :
    ClassFile.parse nestedBytes = .ok nestedClass ∧
      outcome (languageResolver.confine nestedClass) .none = (.ok substitutedClass, .none) ∧
      outcome (languageResolver.confine substitutedClass) .none =
        (.error (.violation ⟨"battlecode/engine/instrumenter/lang/System$Logger", "team1"⟩), .none) := by
  have hrefused : outcome ((substitutedClass.fields.mapM languageResolver.confineField).run
      ⟨substitutedPool, Std.HashSet.insert ∅ 2⟩) .none =
        (.error (.violation ⟨"battlecode/engine/instrumenter/lang/System$Logger", "team1"⟩), .none) := by
    simp only [show substitutedClass.fields = [substitutedField] from rfl, List.mapM_cons,
      outcome_run_bind, outcome_confineField_substituted]
  exact ⟨parse_nestedBytes, outcome_confine_nested,
    Resolver.outcome_confine_plain_of_error ⟨rfl, rfl, rfl, rfl⟩ (by with_unfolding_all rfl)
      verdict_languageResolver_thisName hrefused⟩

/-- The name that is blamed the second time is that of a class nested in a substitute. The substitute itself is not
to blame, and a class with a field of this type stays. -/
theorem confine_repeats_nested :
    languageResolver.settings = .standard ∧ ClassFile.parse nestedBytes = .ok nestedClass ∧
      outcome (languageResolver.confine nestedClass) .none = (.ok substitutedClass, .none) ∧
      ((outcome (languageResolver.confine substitutedClass) .none).1 = .ok substitutedClass ∨
        ∃ offender, languageResolver.BlamesLater offender ∧
          (outcome (languageResolver.confine substitutedClass) .none).1 = .error (.violation ⟨offender, "team1"⟩)) ∧
      ClassFile.parse channelBytes = .ok channelClass ∧
      outcome (languageResolver.confine channelClass) .none = (.ok redirectedClass, .none) ∧
      (outcome (languageResolver.confine redirectedClass) .none).1 = .ok redirectedClass := by
  refine ⟨rfl, parse_nestedBytes, outcome_confine_nested,
    confine_repeats rfl parse_nestedBytes outcome_confine_nested .none, parse_channelBytes, outcome_confine_channel, ?_⟩
  rcases confine_repeats rfl parse_channelBytes outcome_confine_channel .none with hsame | ⟨offender, -, hblamed⟩
  · exact hsame
  · rw [outcome_confine_redirected] at hblamed
    cases hblamed

end ClassSandbox
