import ClassSandbox.Confinement
import ClassSandbox.Proofs.Resolution.Matching

/-!
# Matching confinements

`Simulation.withState` lifts a simulation to computations with a state. Resolvers that match class name by
class name, in the faults of class files and in the flags of fields also match in what they do to a whole
class (`MatchesInFiles.confine`), since both do the same to the pool.
-/

namespace ClassSandbox

namespace Simulation

section State

variable {m n : Type → Type} [Monad m] [Monad n] (S : Simulation m n) {σ α : Type}

/-- The simulation of computations with a state, from every state. -/
def withState (σ : Type) : Simulation (StateT σ m) (StateT σ n) where
  Rel x y := ∀ s, S.Rel (x s) (y s)
  pure a := fun s => S.pure (a, s)
  bind hx hf := fun s => S.bind (hx s) fun (a, t) => hf a t

theorem withState_get : (S.withState σ).Rel get get := fun s => S.pure (s, s)

theorem withState_modify (f : σ → σ) : (S.withState σ).Rel (modify f) (modify f) := by
  intro s
  exact S.pure (PUnit.unit, f s)

theorem withState_lift {x : m α} {y : n α} (h : S.Rel x y) : (S.withState σ).Rel (liftM x) (liftM y) :=
  fun s => S.bind h fun a => S.pure (a, s)

end State

theorem Matches.resolveAnyDescriptor {S : Simulation Resolution Resolution} {r r' : Resolver}
    (h : S.Matches r r') (descriptor : String) :
    S.Rel (r.resolveAnyDescriptor descriptor) (r'.resolveAnyDescriptor descriptor) := by
  unfold Resolver.resolveAnyDescriptor
  split
  · exact h.resolveMethodDescriptor _
  · exact h.resolveDescriptor _

/-- Resolvers that match, also in what they do besides resolution. -/
structure MatchesInFiles (S : Simulation Resolution Resolution) (r r' : Resolver) : Prop
    extends S.Matches r r' where
  classFault {α : Type} (fault : ClassFault) :
    S.Rel (throw (.classFile fault) : Resolution α) (throw (.classFile fault))
  flags : r.keptFieldFlags = r'.keptFieldFlags

namespace MatchesInFiles

open Confinement

variable {S : Simulation Resolution Resolution} {r r' : Resolver} (h : S.MatchesInFiles r r') {α : Type}

include h

/-! ## The pool -/

theorem onPool (action : PoolAction α) : (S.withState _).Rel (onPool action) (onPool action) := by
  rintro ⟨pool, settled⟩
  rcases hrun : action.run.run pool with ⟨fault | result, after⟩
  · simp only [Confinement.onPool, hrun]
    exact h.classFault _
  · simp only [Confinement.onPool, hrun]
    exact S.pure _

theorem fromPool (read : ConstantPool → Except ClassFault α) :
    (S.withState _).Rel (fromPool read) (fromPool read) := by
  refine (S.withState _).bind S.withState_get fun editor => ?_
  split
  · exact (S.withState _).pure _
  · exact S.withState_lift (h.classFault _)

theorem setClass (index : ConstantIndex) (resolved : String) :
    (S.withState _).Rel (setClass index resolved) (setClass index resolved) := by
  refine (S.withState _).bind S.withState_get fun editor => ?_
  split
  · exact (S.withState _).pure _
  · refine (S.withState _).bind (S.withState_modify _) fun _ =>
      (S.withState _).bind (h.fromPool _) fun current => ?_
    split
    · exact (S.withState _).bind (h.onPool _) fun _ => h.onPool _
    · exact (S.withState _).pure _

theorem newText (index : ConstantIndex) (old new : String) :
    (S.withState _).Rel (newText index old new) (newText index old new) := by
  unfold Confinement.newText
  split
  · exact (S.withState _).pure _
  · exact h.onPool _

theorem setSignature (items : List Attribute) (old new : Option String) :
    (S.withState _).Rel (setSignature items old new) (setSignature items old new) := by
  unfold Confinement.setSignature
  split
  · exact (S.withState _).pure _
  · refine (S.withState _).bind (h.fromPool _) fun position? => ?_
    split
    · exact (S.withState _).pure _
    · split
      · exact (S.withState _).pure _
      · exact (S.withState _).bind (h.onPool _) fun _ =>
          (S.withState _).bind (h.onPool _) fun _ => (S.withState _).pure _

/-! ## The parts of a class -/

theorem confineHeader (file : ClassFile) :
    (S.withState _).Rel (r.confineHeader file) (r'.confineHeader file) := by
  refine (S.withState _).bind (h.fromPool _) fun header =>
    (S.withState _).bind (S.withState_lift (h.resolveClassHeader _)) fun resolved =>
      (S.withState _).bind (h.setClass _ _) fun _ => ?_
  have hrest : (S.withState PoolEditor).Rel
      (do (file.interfaces.zip resolved.interfaces).forM fun x => Confinement.setClass x.1 x.2
          Confinement.setSignature file.attributes header.signature resolved.signature)
      (do (file.interfaces.zip resolved.interfaces).forM fun x => Confinement.setClass x.1 x.2
          Confinement.setSignature file.attributes header.signature resolved.signature) :=
    (S.withState _).bind ((S.withState _).list_forM (fun _ => h.setClass _ _) _) fun _ => h.setSignature _ _ _
  dsimp only
  split
  · exact (S.withState _).bind (h.setClass _ _) fun _ => hrest
  · exact hrest

theorem confineField (field : Field) : (S.withState _).Rel (r.confineField field) (r'.confineField field) :=
  (S.withState _).bind (h.fromPool _) fun _ =>
    (S.withState _).bind (S.withState_lift (h.resolveField h.flags _)) fun _ =>
      (S.withState _).bind (h.newText _ _ _) fun _ =>
        (S.withState _).bind (h.setSignature _ _ _) fun _ => (S.withState _).pure _

theorem confineMethod (method : Method) :
    (S.withState _).Rel (r.confineMethod method) (r'.confineMethod method) :=
  (S.withState _).bind (h.fromPool _) fun _ =>
    (S.withState _).bind (h.fromPool _) fun _ =>
      (S.withState _).bind (S.withState_lift (h.resolveMethod _)) fun _ =>
        (S.withState _).bind (h.newText _ _ _) fun _ =>
          (S.withState _).bind (h.setSignature _ _ _) fun _ =>
            (S.withState _).bind ((S.withState _).list_forM (fun _ => h.setClass _ _) _) fun _ =>
              (S.withState _).pure _

/-- A text that turns into another one, and a constant replaced if that changes it. -/
theorem confineText (index text : ConstantIndex) (constant : ConstantIndex → Constant)
    {x y : String → Resolution String} (hxy : ∀ old, S.Rel (x old) (y old)) :
    (S.withState _).Rel
      (do let old ← Confinement.fromPool fun pool => pool.textAt text
          let new ← liftM (x old)
          if old ≠ new then
            let name ← Confinement.onPool (PoolAction.text new)
            Confinement.onPool (PoolAction.replace index (constant name)))
      (do let old ← Confinement.fromPool fun pool => pool.textAt text
          let new ← liftM (y old)
          if old ≠ new then
            let name ← Confinement.onPool (PoolAction.text new)
            Confinement.onPool (PoolAction.replace index (constant name))) := by
  refine (S.withState _).bind (h.fromPool _) fun old =>
    (S.withState _).bind (S.withState_lift (hxy old)) fun new => ?_
  split
  · exact (S.withState _).bind (h.onPool _) fun _ => h.onPool _
  · exact (S.withState _).pure _

theorem confineConstant (index : ConstantIndex) (constant : Constant) :
    (S.withState _).Rel (r.confineConstant index constant) (r'.confineConstant index constant) := by
  unfold Resolver.confineConstant
  split
  · refine (S.withState _).bind S.withState_get fun editor => ?_
    split
    · exact (S.withState _).pure _
    · exact h.confineText _ _ _ h.resolveClass
  · exact h.confineText _ _ _ h.resolveAnyDescriptor
  · exact h.confineText _ _ _ h.resolveMethodDescriptor
  · exact (S.withState _).pure _

theorem confineParts (file : ClassFile) :
    (S.withState _).Rel (r.confineParts file) (r'.confineParts file) :=
  (S.withState _).bind (h.confineHeader file) fun _ =>
    (S.withState _).bind ((S.withState _).list_mapM h.confineField _) fun _ =>
      (S.withState _).bind ((S.withState _).list_mapM h.confineMethod _) fun _ =>
        (S.withState _).bind S.withState_get fun _ =>
          (S.withState _).bind ((S.withState _).list_forM (fun _ => h.confineConstant _ _) _) fun _ =>
            (S.withState _).bind S.withState_get fun _ => (S.withState _).pure _

theorem confine (file : ClassFile) : S.Rel (r.confine file) (r'.confine file) :=
  S.bind (h.confineParts file _) fun _ => S.pure _

end MatchesInFiles

end Simulation

end ClassSandbox
