import ClassSandbox.Proofs.Outcome
import ClassSandbox.Proofs.Signature.RoundTrip
import ClassSandbox.Resolution

/-!
# Resolving signatures

A signature that can be read is resolved through the class names in its tree.
-/

namespace ClassSandbox.Resolver

variable {r : Resolver} {findings after : Findings}

theorem resolveFieldSignature_eq {type : ReferenceSignature} (h : type.WellFormed) :
    r.resolveFieldSignature (some (String.ofList type.render)) = do
      let resolved ← type.mapNames r.resolveClass
      return some (String.ofList resolved.render) := by
  rw [resolveFieldSignature, resolveWith, ReferenceSignature.parseAll_read_iff.2 ⟨h, rfl⟩]

/-- The signature of a class that is not generic. -/
theorem outcome_resolveFieldSignature_class {name resolved : String} (hname : IsClassIdentifier name)
    (hclass : outcome (r.resolveClass name) findings = (.ok resolved, after)) :
    outcome (r.resolveFieldSignature (some (String.ofList ('L' :: name.toList ++ [';'])))) findings =
      (.ok (some (String.ofList ('L' :: resolved.toList ++ [';']))), after) := by
  have hrender (name : String) : (ReferenceSignature.object (.mk (.mk name []) [])).render =
      'L' :: name.toList ++ [';'] := by
    simp [ReferenceSignature.render, ClassTypeSignature.render, SimpleClassSignature.render, renderProjections]
  have hwell : (ReferenceSignature.object (.mk (.mk name []) [])).WellFormed := ⟨⟨hname, trivial⟩, trivial⟩
  rw [← hrender, resolveFieldSignature_eq hwell]
  simp only [ReferenceSignature.mapNames, ClassTypeSignature.mapNames, mapArgumentNames, mapProjectionNames,
    outcome_bind, hclass, outcome_pure, hrender]

/-- The signature of a class that is selected from another one. -/
theorem resolveFieldSignature_nested {outer inner : String} (houter : IsClassIdentifier outer)
    (hinner : IsClassIdentifier inner) :
    r.resolveFieldSignature (some (String.ofList ('L' :: outer.toList ++ '.' :: inner.toList ++ [';']))) = do
      let newOuter ← r.resolveClass outer
      let newFull ← r.resolveClass (nestedName outer inner)
      return some (String.ofList
        ('L' :: newOuter.toList ++ '.' :: ((nestedName? newOuter newFull).getD inner).toList ++ [';'])) := by
  have hrender (outer inner : String) : (ReferenceSignature.object (.mk (.mk outer []) [.mk inner []])).render =
      'L' :: outer.toList ++ '.' :: inner.toList ++ [';'] := by
    simp [ReferenceSignature.render, ClassTypeSignature.render, SimpleClassSignature.render, renderProjections]
  have hwell : (ReferenceSignature.object (.mk (.mk outer []) [.mk inner []])).WellFormed :=
    ⟨⟨houter, trivial⟩, ⟨hinner, trivial⟩, trivial⟩
  rw [← hrender, resolveFieldSignature_eq hwell]
  simp only [ReferenceSignature.mapNames, ClassTypeSignature.mapNames, mapArgumentNames, mapProjectionNames,
    bind_assoc, pure_bind, hrender]

end ClassSandbox.Resolver
