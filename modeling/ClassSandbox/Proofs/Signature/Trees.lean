import ClassSandbox.Proofs.Signature.Declarations

/-!
# Signatures are the written trees

The parsers of all signatures read a text to its end exactly if it is written out from a well-formed tree, and then
they give that tree (`signatures_readExactly`). So nothing that is written is lost or read in two ways.
-/

namespace ClassSandbox

/-- A parser reads to their end exactly the texts that are written out from well-formed trees. -/
def ReadsExactly {α : Type} (parser : Parser α) (wellFormed : α → Prop) (render : α → List Char) : Prop :=
  ∀ (text : String) (tree : α), parseAll parser text = .ok tree ↔ String.ofList (render tree) = text ∧ wellFormed tree

namespace ReadsExactly

variable {α : Type} {parser : Parser α} {wellFormed : α → Prop} {render : α → List Char}

theorem of_takes_iff (h : ∀ text tree, Takes (parser text) tree [] ↔ wellFormed tree ∧ text = render tree) :
    ReadsExactly parser wellFormed render := by
  intro text tree
  rw [parseAll_eq_ok_iff, h, ← String.toList_inj, String.toList_ofList, and_comm, eq_comm]

end ReadsExactly

/-! ## Declarations -/

variable {text : List Char}

theorem ClassSignature.takes_read_iff {signature : ClassSignature} :
    Takes (ClassSignature.read text) signature [] ↔ signature.WellFormed ∧ text = signature.render := by
  rw [ClassSignature.read, takes_withTypeParameters_iff]
  constructor
  · rintro ⟨parameters, inside, hparameters, rfl, -, hbody⟩
    obtain ⟨rfl, hsuperclass, hsuperinterfaces, rfl, -⟩ := ClassSignature.takes_readBody_iff.1 hbody
    exact ⟨⟨hparameters, hsuperclass, hsuperinterfaces⟩, by simp [ClassSignature.render]⟩
  · rintro ⟨⟨hparameters, hsuperclass, hsuperinterfaces⟩, rfl⟩
    refine ⟨signature.typeParameters, signature.superclass.render ++
        signature.superinterfaces.flatMap ClassTypeSignature.render, hparameters, by simp [ClassSignature.render], ?_,
      ClassSignature.takes_readBody_iff.2 ⟨rfl, hsuperclass, hsuperinterfaces, rfl, rfl⟩⟩
    rw [signature.superclass.head?_render]
    rintro - ⟨⟩

theorem MethodSignature.takes_read_iff {signature : MethodSignature} :
    Takes (MethodSignature.read text) signature [] ↔ signature.WellFormed ∧ text = signature.render := by
  rw [MethodSignature.read, takes_withTypeParameters_iff]
  constructor
  · rintro ⟨parameters, inside, hparameters, rfl, -, hbody⟩
    obtain ⟨rfl, htypes, hresult, hthrows, rfl, -⟩ := MethodSignature.takes_readBody_iff.1 hbody
    exact ⟨⟨hparameters, htypes, hresult, hthrows⟩, by simp [MethodSignature.render]⟩
  · rintro ⟨⟨hparameters, htypes, hresult, hthrows⟩, rfl⟩
    exact ⟨signature.typeParameters, '(' :: signature.parameters.flatMap TypeSignature.render ++
        ')' :: signature.result.elim ['V'] TypeSignature.render ++
        signature.throws.flatMap fun thrown => '^' :: thrown.render,
      hparameters, by simp [MethodSignature.render], by simp,
      MethodSignature.takes_readBody_iff.2 ⟨rfl, htypes, hresult, hthrows, (List.append_nil _).symm, by simp⟩⟩

/-- Every kind of signature is read to its end exactly if it is written out from a well-formed tree. -/
theorem signatures_readExactly :
    ReadsExactly GenericSignature.read GenericSignature.WellFormed GenericSignature.render ∧
      ReadsExactly ClassSignature.read ClassSignature.WellFormed ClassSignature.render ∧
      ReadsExactly MethodSignature.read MethodSignature.WellFormed MethodSignature.render ∧
      ReadsExactly ReferenceSignature.read ReferenceSignature.WellFormed ReferenceSignature.render ∧
      ReadsExactly TypeSignature.read TypeSignature.WellFormed TypeSignature.render ∧
      ReadsExactly ClassTypeSignature.read ClassTypeSignature.WellFormed ClassTypeSignature.render := by
  refine ⟨fun text tree => ?_, .of_takes_iff fun _ _ => ClassSignature.takes_read_iff,
    .of_takes_iff fun _ _ => MethodSignature.takes_read_iff, .of_takes_iff fun _ _ => ?_,
    .of_takes_iff fun _ _ => ?_, .of_takes_iff fun _ _ => ?_⟩
  · rw [GenericSignature.parseAll_read_iff, and_comm, eq_comm]
  · rw [ReferenceSignature.takes_read_iff, List.append_nil]
  · rw [TypeSignature.takes_read_iff, List.append_nil]
  · rw [ClassTypeSignature.takes_read_iff, List.append_nil]

end ClassSandbox
