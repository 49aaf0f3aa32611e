import Mathlib.Logic.Relation
import ClassSandbox.Proofs.Confinement.Marks
import ClassSandbox.Proofs.ConstantPool.RoundTrip

/-!
# Steps of the pool

Confinement changes a pool in two ways: a text is appended that is `Marked`, or a constant comes to point to
another text (`Step`). Whatever the steps, the pool stays as regular as one that was read (`Step.regular`).
Constants keep their indices and what they are, and nothing but texts is added after them (`KeepsConstants`,
`keepsConstants_of_steps`).
-/

namespace ClassSandbox

namespace ConstantPool

open Relation

/-- The constants differ at most in the text to which they point: the name of a class, or a descriptor. -/
inductive Repointed : Constant → Constant → Prop where
  | classRef (name name' : ConstantIndex) : Repointed (.classRef name) (.classRef name')
  | nameAndType (name descriptor descriptor' : ConstantIndex) :
      Repointed (.nameAndType name descriptor) (.nameAndType name descriptor')
  | methodType (descriptor descriptor' : ConstantIndex) :
      Repointed (.methodType descriptor) (.methodType descriptor')

/-- One change of the pool on the way. Nothing speaks against it. -/
inductive Step (pool : ConstantPool) : ConstantPool → Prop where
  | text {content : String} (marked : Marked content) (fits : pool.appendFault? (.utf8 content) = none) :
      Step pool (pool.store (.utf8 content))
  | repoint {index : ConstantIndex} {old new : Constant} (there : pool.constantAt index = .ok old)
      (repointed : Repointed old new) (fits : pool.constants.setFault? index.toNat new = none) :
      Step pool (pool.exchange index new)

abbrev Steps : ConstantPool → ConstantPool → Prop := ReflTransGen Step

variable {pool later original : ConstantPool} {index : ConstantIndex} {constant constant' last : Constant}
  {content : String}

theorem Repointed.ne_utf8 (h : Repointed constant constant') :
    constant ≠ .utf8 content ∧ constant' ≠ .utf8 content := by
  cases h <;> exact ⟨nofun, nofun⟩

theorem Repointed.trans (h : Repointed constant constant') (h' : Repointed constant' last) :
    Repointed constant last := by
  cases h <;> cases h' <;> constructor

theorem Repointed.fits (h : Repointed constant constant') : constant'.Fits :=
  fun _ heq => absurd heq h.ne_utf8.2

/-! ## Regular pools -/

/-- Each text in the pool is found by its contents. -/
def Indexed (pool : ConstantPool) : Prop := ∀ index content, pool.textAt index = .ok content → content ∈ pool.texts

/-- What holds of every pool that was read, and stays so. -/
structure Regular (pool : ConstantPool) : Prop where
  sound : pool.Sound
  numbered : pool.Numbered
  indexed : pool.Indexed
  fits : ∀ index constant, pool.constantAt index = .ok constant → constant.Fits

theorem indexed_store (h : pool.Indexed) (hordered : pool.constants.Ordered) (constant : Constant) :
    (pool.store constant).Indexed := by
  intro index content hcontent
  rw [textAt_eq_ok_iff, constantAt_store hordered] at hcontent
  split at hcontent
  · cases hcontent
    simp [store, remember]
  · have hold := h index content (textAt_eq_ok_iff.2 hcontent)
    cases constant <;> simp [store, remember, hold]

theorem indexed_exchange (h : pool.Indexed) (hordered : pool.constants.Ordered)
    (hplain : ∀ text, constant ≠ .utf8 text) (hfits : pool.constants.setFault? index.toNat constant = none) :
    (pool.exchange index constant).Indexed := by
  intro other content hcontent
  have htexts : (pool.exchange index constant).texts = pool.texts := by
    cases constant <;> first | rfl | exact absurd rfl (hplain _)
  rw [textAt_eq_ok_iff, constantAt_exchange hordered hfits] at hcontent
  rw [htexts]
  split at hcontent
  · exact absurd (Except.ok.inj hcontent) (hplain content)
  · exact h other content (textAt_eq_ok_iff.2 hcontent)

/-- What is appended is measured as it will be written. -/
theorem fits_of_appendFault?_utf8 (h : pool.appendFault? (.utf8 content) = none) :
    Constant.Fits (.utf8 content) := by
  simp only [appendFault?, Option.orElse_eq_orElse, Option.orElse_eq_or, Option.or_eq_none_iff] at h
  intro text heq
  cases heq
  rw [← ModifiedUtf8.encodedLength_eq]
  split at h
  · cases h.1
  · rename_i hshort
    exact Nat.lt_succ_of_le (Nat.not_lt.1 hshort)

theorem Step.regular (hstep : Step pool later) (h : pool.Regular) : later.Regular := by
  cases hstep with
  | text marked hfault =>
    have hwidth := PoolAction.fits_of_appendFault? hfault
    refine ⟨sound_store h.sound hwidth, numbered_store h.numbered hwidth,
      indexed_store h.indexed h.sound.ordered _, fun index constant hc => ?_⟩
    rw [constantAt_store h.sound.ordered] at hc
    split at hc
    · cases hc
      exact fits_of_appendFault?_utf8 hfault
    · exact h.fits index constant hc
  | @repoint index old new there repointed hfault =>
    have hplain : ∀ text, pool.constantAt index ≠ .ok (.utf8 text) := fun text htext =>
      repointed.ne_utf8.1 (Except.ok.inj (there.symm.trans htext))
    refine ⟨sound_exchange h.sound hplain hfault,
      ⟨OffsetVector.packed_set (fun constant _ => constant.width_pos) h.numbered.packed, ?_⟩,
      indexed_exchange h.indexed h.sound.ordered (fun _ => repointed.ne_utf8.2) hfault,
      fun other constant hc => ?_⟩
    · rw [exchange, OffsetVector.nextOffset_set]
      exact h.numbered.fits
    · rw [constantAt_exchange h.sound.ordered hfault] at hc
      split at hc
      · cases hc
        exact repointed.fits
      · exact h.fits other constant hc

theorem regular_of_steps (hsteps : Steps pool later) (h : pool.Regular) : later.Regular := by
  induction hsteps with
  | refl => exact h
  | tail _ hstep ih => exact hstep.regular ih

/-! ## What the steps keep -/

/-- A constant stays what it is, and changes at most in the text to which it points. -/
def Kept (constant constant' : Constant) : Prop := constant' = constant ∨ Repointed constant constant'

theorem Kept.trans_repointed (h : Kept constant constant') (h' : Repointed constant' last) :
    Kept constant last := by
  rcases h with rfl | h
  · exact .inr h'
  · exact .inr (h.trans h')

theorem Kept.eq_of_utf8 (h : Kept (.utf8 content) constant) : constant = .utf8 content :=
  h.resolve_right fun hrepointed => hrepointed.ne_utf8.1 rfl

theorem Kept.utf8_eq (h : Kept constant (.utf8 content)) : constant = .utf8 content :=
  (h.resolve_right fun hrepointed => hrepointed.ne_utf8.2 rfl).symm

/-- The constants of the first pool have their indices in the second one, where all others are marked texts after
them. -/
structure KeepsConstants (pool later : ConstantPool) : Prop where
  kept : ∀ index constant, pool.constantAt index = .ok constant →
    ∃ constant', later.constantAt index = .ok constant' ∧ Kept constant constant'
  added : ∀ index constant', later.constantAt index = .ok constant' →
    (∃ constant, pool.constantAt index = .ok constant) ∨
      pool.constants.nextOffset ≤ index.toNat ∧ ∃ content, constant' = .utf8 content ∧ Marked content
  nextOffset : pool.constants.nextOffset ≤ later.constants.nextOffset

theorem KeepsConstants.refl (pool : ConstantPool) : pool.KeepsConstants pool :=
  ⟨fun _ constant hc => ⟨constant, hc, .inl rfl⟩, fun _ constant hc => .inl ⟨constant, hc⟩, Nat.le_refl _⟩

theorem KeepsConstants.step (h : original.KeepsConstants pool) (hordered : pool.constants.Ordered)
    (hstep : Step pool later) : original.KeepsConstants later := by
  cases hstep with
  | text marked _ =>
    refine ⟨fun index constant hc => ?_, fun index constant' hc => ?_, ?_⟩
    · obtain ⟨constant', hat, hkept⟩ := h.kept index constant hc
      exact ⟨constant', grows_store hordered _ _ hat, hkept⟩
    · rw [constantAt_store hordered] at hc
      split at hc
      · rename_i hlast
        cases hc
        exact .inr ⟨hlast ▸ h.nextOffset, _, rfl, marked⟩
      · exact h.added index constant' hc
    · rw [nextOffset_store]
      exact Nat.le_add_right_of_le h.nextOffset
  | @repoint changed old new there repointed hfault =>
    refine ⟨fun index constant hc => ?_, fun index constant' hc => ?_, ?_⟩
    · obtain ⟨constant', hat, hkept⟩ := h.kept index constant hc
      rw [constantAt_exchange hordered hfault]
      split
      · rename_i heq
        subst heq
        obtain rfl : constant' = old := Except.ok.inj (hat.symm.trans there)
        exact ⟨new, rfl, hkept.trans_repointed repointed⟩
      · exact ⟨constant', hat, hkept⟩
    · rw [constantAt_exchange hordered hfault] at hc
      split at hc
      · -- What was there is no text, so it is no new constant.
        rename_i heq
        subst heq
        refine (h.added _ old there).imp_right fun ⟨_, content, heq, _⟩ => ?_
        exact absurd heq repointed.ne_utf8.1
      · exact h.added index constant' hc
    · rw [exchange, OffsetVector.nextOffset_set]
      exact h.nextOffset

theorem keepsConstants_of_steps (hsteps : Steps pool later) (h : pool.Regular) : pool.KeepsConstants later := by
  induction hsteps with
  | refl => exact .refl pool
  | tail hsteps hstep ih => exact ih.step (regular_of_steps hsteps h).sound.ordered hstep

theorem Kept.trans (h : Kept constant constant') (h' : Kept constant' last) : Kept constant last := by
  rcases h' with rfl | h'
  · exact h
  · exact h.trans_repointed h'

theorem KeepsConstants.trans (h : original.KeepsConstants pool) (h' : pool.KeepsConstants later) :
    original.KeepsConstants later where
  kept index constant hc := by
    obtain ⟨constant', hat, hkept⟩ := h.kept index constant hc
    obtain ⟨last, hlast, hkept'⟩ := h'.kept index constant' hat
    exact ⟨last, hlast, hkept.trans hkept'⟩
  added index constant' hc := by
    rcases h'.added index constant' hc with ⟨constant, hat⟩ | ⟨hlater, hmarked⟩
    · rcases h.added index constant hat with hold | ⟨hnew, content, rfl, hmarked⟩
      · exact .inl hold
      · obtain ⟨_, hat', hkept⟩ := h'.kept index _ hat
        obtain rfl := Except.ok.inj (hat'.symm.trans hc)
        exact .inr ⟨hnew, content, hkept.eq_of_utf8, hmarked⟩
    · exact .inr ⟨Nat.le_trans h.nextOffset hlater, hmarked⟩
  nextOffset := Nat.le_trans h.nextOffset h'.nextOffset

namespace KeepsConstants

variable (h : pool.KeepsConstants later)

include h

theorem textAt (hcontent : pool.textAt index = .ok content) : later.textAt index = .ok content := by
  obtain ⟨constant', hat, hkept⟩ := h.kept index _ (textAt_eq_ok_iff.1 hcontent)
  rw [textAt_eq_ok_iff, hat, hkept.eq_of_utf8]

/-- A text without marks is an old one. -/
theorem textAt_of_not_marked (hplain : ¬ Marked content) (hcontent : later.textAt index = .ok content) :
    pool.textAt index = .ok content := by
  rw [textAt_eq_ok_iff] at hcontent
  rcases h.added index _ hcontent with ⟨constant, hc⟩ | ⟨-, content', heq, hmarked⟩
  · obtain ⟨constant', hat, hkept⟩ := h.kept index constant hc
    obtain rfl : constant' = .utf8 content := Except.ok.inj (hat.symm.trans hcontent)
    rw [textAt_eq_ok_iff, hc, hkept.utf8_eq]
  · cases heq
    exact absurd hmarked hplain

end KeepsConstants

/-! ## Pools that were read -/

theorem indexed_foldl_store {constants : List Constant} (hordered : pool.constants.Ordered) (h : pool.Indexed) :
    (constants.foldl store pool).Indexed := by
  induction constants generalizing pool with
  | nil => exact h
  | cons constant constants ih =>
    refine ih ?_ (indexed_store h hordered constant)
    rw [constants_store]
    exact OffsetVector.ordered_push hordered constant.width_pos

theorem indexed_empty : empty.Indexed := by
  intro index content hcontent
  rw [textAt_eq_ok_iff] at hcontent
  exact absurd (mem_of_constantAt sound_empty hcontent) (List.not_mem_nil)

theorem regular_of_decode {bytes rest : Bytes} (h : decode bytes = .ok (pool, rest)) : pool.Regular := by
  have hsound := sound_of_decode h
  obtain ⟨hnumbered, hfits, -⟩ := yields_decode _ _ _ h
  obtain ⟨-, -, constants, -, -, rfl, -⟩ := exists_of_decode h
  refine ⟨hsound, hnumbered, indexed_foldl_store sound_empty.ordered indexed_empty, fun index constant hc =>
    hfits constant ?_⟩
  exact List.mem_map.2 ⟨_, mem_of_constantAt hsound hc, rfl⟩

end ConstantPool

end ClassSandbox
