import ClassSandbox.Proofs.Confinement.Edits
import ClassSandbox.Proofs.Confinement.Results

/-!
# The sweep over the constants

`Turns` says that a text of one pool has its result in another, and `Mediated` that a constant has turned into
another one in this way. Confining one constant mediates it and leaves the others alone
(`gives_confineConstant`), so a sweep over constants at different indices mediates all of them, but for the
classes that are settled (`sweep_mediates`).
-/

namespace ClassSandbox

/-- What an operation gives for the text at one index of the original pool is at another one of the confined
pool. -/
def Turns (r : Resolver) (operation : Resolver → String → Resolution String) (original confined : ConstantPool)
    (old new : ConstantIndex) : Prop :=
  ∀ text, original.textAt old = .ok text →
    ∃ result, r.Resolves operation text result ∧ confined.textAt new = .ok result

/-- What a constant may turn into. -/
inductive Mediated (r : Resolver) (original confined : ConstantPool) : Constant → Constant → Prop where
  | classRef {name name' : ConstantIndex} (turns : Turns r Resolver.resolveClass original confined name name') :
      Mediated r original confined (.classRef name) (.classRef name')
  | nameAndType {name descriptor descriptor' : ConstantIndex}
      (turns : Turns r Resolver.resolveAnyDescriptor original confined descriptor descriptor') :
      Mediated r original confined (.nameAndType name descriptor) (.nameAndType name descriptor')
  | methodType {descriptor descriptor' : ConstantIndex}
      (turns : Turns r Resolver.resolveMethodDescriptor original confined descriptor descriptor') :
      Mediated r original confined (.methodType descriptor) (.methodType descriptor')
  /-- The other constants mention no class. -/
  | other {constant : Constant} (noClass : ∀ name, constant ≠ .classRef name)
      (noPair : ∀ name descriptor, constant ≠ .nameAndType name descriptor)
      (noType : ∀ descriptor, constant ≠ .methodType descriptor) :
      Mediated r original confined constant constant

section Growth

open ConstantPool

variable {r : Resolver} {earlier original confined later : ConstantPool}

theorem Turns.mono {operation : Resolver → String → Resolution String} {old new : ConstantIndex}
    (h : Turns r operation original confined old new) (hbefore : earlier.KeepsTexts original)
    (hafter : confined.KeepsTexts later) : Turns r operation earlier later old new := by
  intro text htext
  obtain ⟨result, hresolves, hresult⟩ := h text (hbefore _ _ htext)
  exact ⟨result, hresolves, hafter _ _ hresult⟩

theorem Mediated.mono {constant constant' : Constant} (h : Mediated r original confined constant constant')
    (hbefore : earlier.KeepsTexts original) (hafter : confined.KeepsTexts later) :
    Mediated r earlier later constant constant' := by
  cases h with
  | classRef turns => exact .classRef (turns.mono hbefore hafter)
  | nameAndType turns => exact .nameAndType (turns.mono hbefore hafter)
  | methodType turns => exact .methodType (turns.mono hbefore hafter)
  | other noClass noPair noType => exact .other noClass noPair noType

end Growth

namespace Confinement

open ConstantPool

variable {r : Resolver} {editor later : PoolEditor} {index : ConstantIndex}

/-- What the sweep makes of a constant: it leaves the classes alone that are settled. -/
inductive Swept (r : Resolver) (editor : PoolEditor) (confined : ConstantPool) (index : ConstantIndex) :
    Constant → Constant → Prop where
  | settled {name : ConstantIndex} (before : index ∈ editor.settled) :
      Swept r editor confined index (.classRef name) (.classRef name)
  | mediated {constant constant' : Constant}
      (pending : ∀ name, constant = .classRef name → index ∉ editor.settled)
      (turns : Mediated r editor.pool confined constant constant') :
      Swept r editor confined index constant constant'

theorem Swept.mono {confined pool : ConstantPool} {constant constant' : Constant}
    (h : Swept r later confined index constant constant') (hsettled : later.settled = editor.settled)
    (hbefore : editor.pool.KeepsTexts later.pool) (hafter : confined.KeepsTexts pool) :
    Swept r editor pool index constant constant' := by
  cases h with
  | settled before => exact .settled (hsettled ▸ before)
  | mediated pending turns => exact .mediated (hsettled ▸ pending) (turns.mono hbefore hafter)

/-- The text to which a constant points is resolved, and the result is put in its place if it differs. -/
theorem gives_confineText (h : editor.pool.Sound) {operation : Resolver → String → Resolution String}
    (build : ConstantIndex → Constant) (hplain : ∀ text content, build text ≠ .utf8 content)
    {text : ConstantIndex} (hold : editor.pool.constantAt index = .ok (build text)) {u : Unit}
    (hrun : Gives (do let old ← fromPool fun pool => pool.textAt text
                      let new ← liftM (operation r old)
                      if old ≠ new then
                        let found ← onPool (PoolAction.text new)
                        onPool (PoolAction.replace index (build found))) editor u later) :
    Repoints editor later index ∧ later.settled = editor.settled ∧
      ∃ old new found, editor.pool.textAt text = .ok old ∧ MayGive (operation r old) new ∧
        later.pool.constantAt index = .ok (build found) ∧ later.pool.textAt found = .ok new := by
  obtain ⟨old, _, hread, hrun⟩ := gives_bind hrun
  obtain ⟨htext, rfl⟩ := gives_fromPool hread
  obtain ⟨new, _, hlift, hrun⟩ := gives_bind hrun
  obtain ⟨rfl, hnew⟩ := gives_lift hlift
  split at hrun
  · obtain ⟨hrepoints, hsettled, found, hat, hfound⟩ := gives_repoint h hold (hplain text) hrun
    exact ⟨hrepoints, hsettled, old, new, found, htext, hnew, hat, hfound⟩
  · rename_i hsame
    obtain ⟨-, rfl⟩ := gives_pure hrun
    rw [Decidable.not_not] at hsame
    exact ⟨⟨h, fun _ _ _ hc => hc, .refl _⟩, rfl, old, new, text, htext, hnew, hold, hsame ▸ htext⟩

theorem turns_of_mayGive {pool later : ConstantPool} {operation : Resolver → String → Resolution String}
    (hmatch : ∀ silenced old, results.Rel (operation r old) (operation { r with silenced } old))
    {text found : ConstantIndex} {old new : String} (htext : pool.textAt text = .ok old)
    (hnew : MayGive (operation r old) new) (hfound : later.textAt found = .ok new) :
    Turns r operation pool later text found := by
  intro other hother
  obtain rfl : old = other := Except.ok.inj (htext.symm.trans hother)
  exact ⟨new, Resolver.resolves_of_mayGive hnew fun silenced => hmatch silenced old, hfound⟩

theorem gives_confineConstant (h : editor.pool.Sound) {constant : Constant}
    (hold : editor.pool.constantAt index = .ok constant) {u : Unit}
    (hrun : Gives (r.confineConstant index constant) editor u later) :
    Repoints editor later index ∧ later.settled = editor.settled ∧
      ∃ constant', later.pool.constantAt index = .ok constant' ∧
        Swept r editor later.pool index constant constant' := by
  have hsame : Repoints editor editor index := ⟨h, fun _ _ _ hc => hc, .refl _⟩
  unfold Resolver.confineConstant at hrun
  split at hrun
  · obtain ⟨_, _, hget, hrun⟩ := gives_bind hrun
    obtain ⟨rfl, rfl⟩ := gives_get hget
    split at hrun
    · rename_i hsettled
      obtain ⟨-, rfl⟩ := gives_pure hrun
      exact ⟨hsame, rfl, _, hold, .settled hsettled⟩
    · rename_i hpending
      obtain ⟨hrepoints, hsettled, old, new, found, htext, hnew, hat, hfound⟩ :=
        gives_confineText h .classRef (by rintro _ _ ⟨⟩) hold hrun
      exact ⟨hrepoints, hsettled, _, hat, .mediated (fun _ _ => hpending) (.classRef
        (turns_of_mayGive (fun silenced => (r.results_matches silenced).resolveClass) htext hnew hfound))⟩
  · rename_i name descriptor
    obtain ⟨hrepoints, hsettled, old, new, found, htext, hnew, hat, hfound⟩ :=
      gives_confineText h (.nameAndType name) (by rintro _ _ ⟨⟩) hold hrun
    exact ⟨hrepoints, hsettled, _, hat, .mediated (by rintro _ ⟨⟩) (.nameAndType
      (turns_of_mayGive (fun silenced => (r.results_matches silenced).resolveAnyDescriptor) htext hnew hfound))⟩
  · obtain ⟨hrepoints, hsettled, old, new, found, htext, hnew, hat, hfound⟩ :=
      gives_confineText h .methodType (by rintro _ _ ⟨⟩) hold hrun
    exact ⟨hrepoints, hsettled, _, hat, .mediated (by rintro _ ⟨⟩) (.methodType
      (turns_of_mayGive (fun silenced => (r.results_matches silenced).resolveMethodDescriptor) htext hnew hfound))⟩
  · rename_i noClass noPair noType
    obtain ⟨-, rfl⟩ := gives_pure hrun
    exact ⟨hsame, rfl, constant, hold, .mediated (fun name heq => absurd heq (noClass name))
      (.other noClass noPair noType)⟩

/-- A sweep over constants at different indices leaves each of them as it was confined, and the others as they
were. -/
theorem sweep_mediates {constants : List (Nat × Constant)}
    (hdistinct : (constants.map fun entry => UInt16.ofNat entry.1).Nodup) (h : editor.pool.Sound)
    (hold : ∀ entry ∈ constants, editor.pool.constantAt (UInt16.ofNat entry.1) = .ok entry.2) {u : Unit}
    (hrun : Gives (constants.forM fun (offset, constant) => r.confineConstant (UInt16.ofNat offset) constant)
      editor u later) :
    editor.pool.KeepsTexts later.pool ∧ later.settled = editor.settled ∧
      (∀ entry ∈ constants, ∃ constant, later.pool.constantAt (UInt16.ofNat entry.1) = .ok constant ∧
        Swept r editor later.pool (UInt16.ofNat entry.1) entry.2 constant) ∧
      ∀ index constant, index ∉ constants.map (fun entry => UInt16.ofNat entry.1) →
        editor.pool.constantAt index = .ok constant → later.pool.constantAt index = .ok constant := by
  induction constants generalizing editor with
  | nil =>
    obtain ⟨-, rfl⟩ := gives_pure hrun
    exact ⟨.refl _, rfl, fun _ hmem => (nomatch hmem), fun _ _ _ hc => hc⟩
  | cons entry rest ih =>
    obtain ⟨_, middle, hfirst, hrest⟩ := gives_bind hrun
    obtain ⟨hfresh, hdistinct⟩ := List.nodup_cons.1 hdistinct
    obtain ⟨hrepoints, hsettled, constant, hat, hswept⟩ :=
      gives_confineConstant h (hold entry List.mem_cons_self) hfirst
    have hkept : ∀ other ∈ rest, middle.pool.constantAt (UInt16.ofNat other.1) = .ok other.2 := fun other hmem =>
      hrepoints.others _ _ (fun heq => hfresh (List.mem_map.2 ⟨other, hmem, heq⟩))
        (hold other (List.mem_cons_of_mem _ hmem))
    obtain ⟨htexts, hsame, hall, hothers⟩ := ih hdistinct hrepoints.sound hkept hrest
    refine ⟨hrepoints.texts.trans htexts, hsame.trans hsettled, fun other hmem => ?_,
      fun index found hout hc => ?_⟩
    · rcases List.mem_cons.1 hmem with rfl | hmem
      · exact ⟨constant, hothers _ _ hfresh hat, hswept.mono rfl (.refl _) htexts⟩
      · obtain ⟨found, hfound, hdone⟩ := hall other hmem
        exact ⟨found, hfound, hdone.mono hsettled hrepoints.texts (.refl _)⟩
    · rw [List.map_cons, List.mem_cons, not_or] at hout
      exact hothers index found hout.2 (hrepoints.others index found hout.1 hc)

end Confinement

end ClassSandbox
