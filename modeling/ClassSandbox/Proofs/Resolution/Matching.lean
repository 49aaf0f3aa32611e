import ClassSandbox.Proofs.Resolution.Refusal
import ClassSandbox.Proofs.Simulation
import ClassSandbox.Resolution.Header

/-!
# Matching resolvers

Two resolvers match under a simulation when it relates what they do with a single class name, and the few
steps around it (`Simulation.Matches`). It then relates whatever the two make of descriptors, signatures and
headers, since both walk through them in the same way. Resolvers with the same verdicts match when reports and
refusals are related (`Matches.of_verdict`), and of the reports it takes only those that stand alone
(`Matches.of_reports`).
-/

namespace ClassSandbox

/-- The steps of one resolver are related to those of another. -/
structure Simulation.Matches (S : Simulation Resolution Resolution) (r r' : Resolver) : Prop where
  resolveClass (name : String) : S.Rel (r.resolveClass name) (r'.resolveClass name)
  refuse (name : String) : S.Rel (r.refuse name) (r'.refuse name)
  unrecognized (text : String) :
    S.Rel (r.report (.unrecognizedDescriptor text r.sandbox.text))
      (r'.report (.unrecognizedDescriptor text r'.sandbox.text))
  malformedName (fault : NameFault) :
    S.Rel (throw (.malformedName fault) : Resolution BinaryName) (throw (.malformedName fault))

namespace Simulation.Matches

variable {S : Simulation Resolution Resolution} {r r' : Resolver}

theorem of_reports (hverdict : ∀ name, r'.verdict name = r.verdict name) (hsandbox : r'.sandbox = r.sandbox)
    (hmoved : ∀ old new, S.Rel (r.report (.redirected old new)) (r'.report (.redirected old new)))
    (hunrecognized : ∀ text sandbox,
      S.Rel (r.report (.unrecognizedDescriptor text sandbox)) (r'.report (.unrecognizedDescriptor text sandbox)))
    (hrefuse : ∀ name, S.Rel (r.refuse name) (r'.refuse name))
    (hfault : ∀ fault,
      S.Rel (throw (.malformedName fault) : Resolution BinaryName) (throw (.malformedName fault))) :
    S.Matches r r' where
  resolveClass name := by
    rw [Resolver.resolveClass_eq, Resolver.resolveClass_eq, hverdict]
    refine S.bind ?_ fun _ => S.bind ?_ fun _ => S.pure _
    · cases (r.verdict name).offender? with
      | none => exact S.pure _
      | some offender => exact hrefuse offender
    · unfold Resolver.reportMove
      split
      · exact hmoved _ _
      · exact S.pure _
  refuse := hrefuse
  unrecognized text := by
    rw [hsandbox]
    exact hunrecognized _ _
  malformedName := hfault

theorem of_verdict (hverdict : ∀ name, r'.verdict name = r.verdict name) (hsandbox : r'.sandbox = r.sandbox)
    (hreport : ∀ diagnostic, S.Rel (r.report diagnostic) (r'.report diagnostic))
    (hrefuse : ∀ name, S.Rel (r.refuse name) (r'.refuse name))
    (hfault : ∀ fault,
      S.Rel (throw (.malformedName fault) : Resolution BinaryName) (throw (.malformedName fault))) :
    S.Matches r r' :=
  of_reports hverdict hsandbox (fun _ _ => hreport _) (fun _ _ => hreport _) hrefuse hfault

variable (h : S.Matches r r')

include h

/-! ## Descriptors -/

theorem resolveElement (text : List Char) : S.Rel (r.resolveElement text) (r'.resolveElement text) := by
  have hplain : S.Rel
      (do if !Resolver.isPlainType text then
            r.report (.unrecognizedDescriptor (String.ofList text) r.sandbox.text)
          return String.ofList text)
      (do if !Resolver.isPlainType text then
            r'.report (.unrecognizedDescriptor (String.ofList text) r'.sandbox.text)
          return String.ofList text) := by
    cases Resolver.isPlainType text with
    | true => exact S.pure _
    | false => exact S.bind (h.unrecognized _) fun _ => S.pure _
  unfold Resolver.resolveElement
  split
  · exact hplain
  · exact hplain
  · exact S.bind (h.resolveClass _) fun _ => S.pure _

theorem resolveDescriptor (descriptor : String) :
    S.Rel (r.resolveDescriptor descriptor) (r'.resolveDescriptor descriptor) :=
  S.bind (h.resolveElement _) fun _ => S.pure _

theorem resolveMethodDescriptor (descriptor : String) :
    S.Rel (r.resolveMethodDescriptor descriptor) (r'.resolveMethodDescriptor descriptor) := by
  unfold Resolver.resolveMethodDescriptor
  split
  · exact S.bind (h.refuse _) fun _ => S.pure _
  · refine S.bind (S.methodDescriptor_mapClass (fun name => S.bind (h.resolveClass _) fun resolved => ?_) _)
      fun _ => S.pure _
    split
    · exact S.pure _
    · exact h.malformedName _

/-! ## Signatures -/

theorem resolveWith {α : Type} (parser : Parser α) (render : α → List Char)
    {mapNames : (String → Resolution String) → α → Resolution α}
    (hmap : ∀ {f g : String → Resolution String}, (∀ name, S.Rel (f name) (g name)) →
      ∀ a, S.Rel (mapNames f a) (mapNames g a)) (signature? : Option String) :
    S.Rel (r.resolveWith parser render mapNames signature?)
      (r'.resolveWith parser render mapNames signature?) := by
  unfold Resolver.resolveWith
  split
  · exact S.pure _
  · split
    · exact S.bind (h.refuse _) fun _ => S.pure _
    · exact S.bind (hmap h.resolveClass _) fun _ => S.pure _

theorem resolveSignature (signature? : Option String) :
    S.Rel (r.resolveSignature signature?) (r'.resolveSignature signature?) :=
  h.resolveWith _ _ S.genericSignature_mapNames _

theorem resolveFieldSignature (signature? : Option String) :
    S.Rel (r.resolveFieldSignature signature?) (r'.resolveFieldSignature signature?) :=
  h.resolveWith _ _ S.referenceSignature_mapNames _

/-! ## Headers -/

theorem resolveClassHeader (header : ClassHeader) :
    S.Rel (r.resolveClassHeader header) (r'.resolveClassHeader header) :=
  S.bind (h.resolveClass _) fun _ =>
    S.bind (S.option_mapM h.resolveClass _) fun _ =>
      S.bind (S.list_mapM h.resolveClass _) fun _ =>
        S.bind (h.resolveSignature _) fun _ => S.pure _

theorem resolveField (hflags : r.keptFieldFlags = r'.keptFieldFlags) (header : FieldHeader) :
    S.Rel (r.resolveField header) (r'.resolveField header) := by
  unfold Resolver.resolveField
  rw [hflags]
  exact S.bind (h.resolveDescriptor _) fun _ => S.bind (h.resolveFieldSignature _) fun _ => S.pure _

theorem resolveMethod (header : MethodHeader) :
    S.Rel (r.resolveMethod header) (r'.resolveMethod header) :=
  S.bind (h.resolveMethodDescriptor _) fun _ =>
    S.bind (h.resolveSignature _) fun _ =>
      S.bind (S.list_mapM h.resolveClass _) fun _ => S.pure _

end Simulation.Matches

end ClassSandbox
