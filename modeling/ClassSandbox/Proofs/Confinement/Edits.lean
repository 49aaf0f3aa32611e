import ClassSandbox.Proofs.Confinement.Runs
import ClassSandbox.Proofs.ConstantPool

/-!
# Edits of the pool

What the steps of a confinement do to a sound pool. Some only append texts (`Extends`): `newText` and
`setSignature`. The others have one constant point to another text (`Repoints`): `setClass`, unless the class is
settled, and the confinement of a constant, unless its text stays the same (`gives_repoint`). In either case
texts stay where they are (`KeepsTexts`).
-/

namespace ClassSandbox

namespace ConstantPool

/-- All the texts of the first pool are in the second. -/
def KeepsTexts (pool later : ConstantPool) : Prop :=
  ∀ index text, pool.textAt index = .ok text → later.textAt index = .ok text

/-- All the constants of the first pool are in the second, but for the one at an index. -/
def GrowsExcept (pool later : ConstantPool) (index : ConstantIndex) : Prop :=
  ∀ other constant, other ≠ index → pool.constantAt other = .ok constant → later.constantAt other = .ok constant

variable {pool later last : ConstantPool} {index : ConstantIndex}

theorem KeepsTexts.refl (pool : ConstantPool) : pool.KeepsTexts pool := fun _ _ h => h

theorem KeepsTexts.trans (h : pool.KeepsTexts later) (h' : later.KeepsTexts last) : pool.KeepsTexts last :=
  fun index text htext => h' index text (h index text htext)

theorem Grows.keepsTexts (h : pool.Grows later) : pool.KeepsTexts later := fun index _ htext =>
  textAt_eq_ok_iff.2 (h index _ (textAt_eq_ok_iff.1 htext))

theorem GrowsExcept.keepsTexts (h : pool.GrowsExcept later index)
    (hplain : ∀ text, pool.textAt index ≠ .ok text) : pool.KeepsTexts later := fun other _ htext =>
  textAt_eq_ok_iff.2 (h other _ (fun heq => hplain _ (heq ▸ htext)) (textAt_eq_ok_iff.1 htext))

end ConstantPool

namespace Confinement

open ConstantPool

variable {editor later : PoolEditor} {index : ConstantIndex}

/-- An edit that only appends constants. -/
structure Extends (editor later : PoolEditor) : Prop where
  sound : later.pool.Sound
  grows : editor.pool.Grows later.pool
  settled : later.settled = editor.settled

/-- An edit that changes the constant at an index, which is no text. -/
structure Repoints (editor later : PoolEditor) (index : ConstantIndex) : Prop where
  sound : later.pool.Sound
  others : editor.pool.GrowsExcept later.pool index
  texts : editor.pool.KeepsTexts later.pool

theorem Extends.refl (h : editor.pool.Sound) : Extends editor editor := ⟨h, fun _ _ h => h, rfl⟩

theorem Extends.trans {last : PoolEditor} (h : Extends editor later) (h' : Extends later last) :
    Extends editor last :=
  ⟨h'.sound, fun index constant hc => h'.grows index constant (h.grows index constant hc),
    h'.settled.trans h.settled⟩

/-! ## Texts -/

theorem gives_text (h : editor.pool.Sound) {text : String}
    (hrun : Gives (onPool (PoolAction.text text)) editor index later) :
    Extends editor later ∧ later.pool.textAt index = .ok text := by
  obtain ⟨hpool, hsettled⟩ := gives_onPool hrun
  obtain ⟨hsound, hgrows, hat⟩ := PoolAction.outcome_text_ok h hpool
  exact ⟨⟨hsound, hgrows, hsettled⟩, textAt_eq_ok_iff.2 hat⟩

theorem gives_newText (h : editor.pool.Sound) {old new : String} {found : ConstantIndex}
    (hold : editor.pool.textAt index = .ok old) (hrun : Gives (newText index old new) editor found later) :
    Extends editor later ∧ later.pool.textAt found = .ok new := by
  unfold newText at hrun
  split at hrun
  · rename_i heq
    obtain ⟨rfl, rfl⟩ := gives_pure hrun
    exact ⟨.refl h, heq ▸ hold⟩
  · exact gives_text h hrun

theorem gives_writeSignature (h : editor.pool.Sound) {contents : ConstantIndex} {item : Attribute}
    (hrun : Gives (onPool (signatureKind.write contents)) editor item later) : Extends editor later := by
  obtain ⟨hpool, hsettled⟩ := gives_onPool hrun
  obtain ⟨name, middle, htext, hwrite⟩ := outcome_bind_eq_ok_iff.1 hpool
  obtain ⟨hsound, hgrows, -⟩ := PoolAction.outcome_text_ok h htext
  cases hwrite
  exact ⟨hsound, hgrows, hsettled⟩

theorem gives_setSignature (h : editor.pool.Sound) {items result : List Attribute} {old new : Option String}
    (hrun : Gives (setSignature items old new) editor result later) : Extends editor later := by
  unfold setSignature at hrun
  split at hrun
  · obtain ⟨-, rfl⟩ := gives_pure hrun
    exact .refl h
  · obtain ⟨position?, _, hread, hrun⟩ := gives_bind hrun
    obtain ⟨-, rfl⟩ := gives_fromPool hread
    split at hrun
    · obtain ⟨-, rfl⟩ := gives_pure hrun
      exact .refl h
    · split at hrun
      · obtain ⟨-, rfl⟩ := gives_pure hrun
        exact .refl h
      · obtain ⟨text, middle, htext, hrun⟩ := gives_bind hrun
        obtain ⟨item, last, hitem, hrun⟩ := gives_bind hrun
        obtain ⟨-, rfl⟩ := gives_pure hrun
        have hfirst := (gives_text h htext).1
        exact hfirst.trans (gives_writeSignature hfirst.sound hitem)

/-! ## Constants -/

/-- A constant that is no text comes to point to a new text. -/
theorem gives_repoint (h : editor.pool.Sound) {constant : Constant} {build : ConstantIndex → Constant}
    (hold : editor.pool.constantAt index = .ok constant) (hplain : ∀ text, constant ≠ .utf8 text)
    {text : String} {u : Unit}
    (hrun : Gives (do let found ← onPool (PoolAction.text text)
                      onPool (PoolAction.replace index (build found))) editor u later) :
    Repoints editor later index ∧ later.settled = editor.settled ∧
      ∃ found, later.pool.constantAt index = .ok (build found) ∧ later.pool.textAt found = .ok text := by
  obtain ⟨found, middle, htext, hrun⟩ := gives_bind hrun
  obtain ⟨hextends, hfound⟩ := gives_text h htext
  obtain ⟨hpool, hsettled⟩ := gives_onPool hrun
  have hthere := hextends.grows index constant hold
  have hnotext : ∀ content, middle.pool.constantAt index ≠ .ok (.utf8 content) := fun content hcontent =>
    hplain content (Except.ok.inj (hthere.symm.trans hcontent))
  obtain ⟨hsound, hat⟩ := PoolAction.outcome_replace_ok hextends.sound hnotext hpool
  have hothers : middle.pool.GrowsExcept later.pool index := fun other constant hne hconstant => by
    rw [hat, if_neg hne, hconstant]
  have hkeeps := hothers.keepsTexts fun content hcontent => hnotext content (textAt_eq_ok_iff.1 hcontent)
  refine ⟨⟨hsound, fun other constant hne hconstant => ?_, hextends.grows.keepsTexts.trans hkeeps⟩,
    hsettled.trans hextends.settled, found, by rw [hat, if_pos rfl], hkeeps found text hfound⟩
  exact hothers other constant hne (hextends.grows other constant hconstant)

/-- The first to reach a class settles it, with the name that it brings. -/
theorem gives_setClass (h : editor.pool.Sound) {name : String} {u : Unit}
    (hrun : Gives (setClass index name) editor u later) :
    (index ∈ editor.settled ∧ later = editor) ∨
      index ∉ editor.settled ∧ later.settled = editor.settled.insert index ∧ Repoints editor later index ∧
        (∃ old, editor.pool.constantAt index = .ok (.classRef old)) ∧
        ∃ found, later.pool.constantAt index = .ok (.classRef found) ∧ later.pool.textAt found = .ok name := by
  obtain ⟨_, _, hget, hrun⟩ := gives_bind hrun
  obtain ⟨rfl, rfl⟩ := gives_get hget
  split at hrun
  · rename_i hsettled
    obtain ⟨-, rfl⟩ := gives_pure hrun
    exact .inl ⟨hsettled, rfl⟩
  · rename_i hpending
    obtain ⟨_, _, hmark, hrun⟩ := gives_bind hrun
    obtain rfl := gives_modify hmark
    obtain ⟨current, _, hread, hrun⟩ := gives_bind hrun
    obtain ⟨hcurrent, rfl⟩ := gives_fromPool hread
    obtain ⟨old, hclass, htext⟩ := classNameAt_eq_ok_iff.1 hcurrent
    refine .inr ⟨hpending, ?_⟩
    have hsound : (PoolEditor.mk editor.pool (editor.settled.insert index)).pool.Sound := h
    split at hrun
    · obtain ⟨hrepoints, hsettled, hfound⟩ := gives_repoint hsound hclass (fun _ heq => nomatch heq) hrun
      exact ⟨hsettled, ⟨hrepoints.sound, hrepoints.others, hrepoints.texts⟩, ⟨old, hclass⟩, hfound⟩
    · rename_i hsame
      obtain ⟨-, rfl⟩ := gives_pure hrun
      rw [Decidable.not_not] at hsame
      exact ⟨rfl, ⟨h, fun _ _ _ hold => hold, .refl _⟩, ⟨old, hclass⟩, old, hclass, hsame ▸ htext⟩

end Confinement

end ClassSandbox
