import ClassSandbox.ConstantPool.Codec
import ClassSandbox.Proofs.Decoding
import ClassSandbox.Proofs.OffsetVector
import ClassSandbox.Proofs.Outcome

/-!
# Sound pools

A pool is `Sound` when its constants are in order, all of its indices fit, and whatever its maps find is
there. What each change of the maps means for `find?` is one equation (`find?_remember_eq`, `find?_forget_eq`,
`find?_store`). What is read from bytes is sound (`sound_of_decode`), and so is what the actions leave behind: `append`
and `text` let the pool grow (`outcome_append_ok`, `outcome_text_ok`), and `replace` changes the constant at
one index (`outcome_replace_ok`).
-/

namespace ClassSandbox

namespace ConstantPool

/-! ## Finding -/

/-- The index at which the maps find a constant. -/
def find? (pool : ConstantPool) : Constant → Option ConstantIndex
  | .utf8 text => pool.texts[text]?
  | .classRef name => pool.classes[name]?
  | .nameAndType name descriptor => pool.nameAndTypes[(name, descriptor)]?
  | _ => none

/-- The maps find only constants of these kinds. -/
def isFindable : Constant → Bool
  | .utf8 _ | .classRef _ | .nameAndType _ _ => true
  | _ => false

/-- Where a constant is found when no class and no pair is found at an index. Texts are found as before. -/
def findBeside? (pool : ConstantPool) (index : ConstantIndex) : Constant → Option ConstantIndex
  | .utf8 text => pool.find? (.utf8 text)
  | constant => (pool.find? constant).filter (· != index)

theorem getElem?_insertIfNew_eq {κ : Type} [DecidableEq κ] [BEq κ] [LawfulBEq κ] [Hashable κ] [LawfulHashable κ]
    (map : Std.HashMap κ ConstantIndex) (key other : κ) (index : ConstantIndex) :
    (map.insertIfNew key index)[other]? = if other = key then some (map[other]?.getD index) else map[other]? := by
  rw [Std.HashMap.getElem?_insertIfNew]
  by_cases hkey : other = key
  · subst hkey
    by_cases hold : other ∈ map <;> simp [hold]
  · simp [hkey, Ne.symm hkey]

/-- A constant is found where it is remembered, unless it was found before. -/
theorem find?_remember_eq (pool : ConstantPool) (index : ConstantIndex) (constant other : Constant) :
    (pool.remember index constant).find? other =
      if other = constant ∧ isFindable constant then some ((pool.find? other).getD index) else pool.find? other := by
  cases constant <;> cases other <;> simp [remember, find?, isFindable, getElem?_insertIfNew_eq]

theorem find?_forget_eq (pool : ConstantPool) (index : ConstantIndex) (constant : Constant) :
    (pool.forget index).find? constant = pool.findBeside? index constant := by
  cases constant <;> simp [find?, findBeside?, forget]

theorem find?_store (pool : ConstantPool) (constant other : Constant) :
    (pool.store constant).find? other =
      if other = constant ∧ isFindable constant then
        some ((pool.find? other).getD (UInt16.ofNat pool.constants.nextOffset))
      else pool.find? other := by
  rw [← find?_remember_eq]
  cases other <;> rfl

theorem findBeside?_congr {pool pool' : ConstantPool} {index : ConstantIndex} {constant : Constant}
    (h : pool.find? constant = pool'.find? constant) :
    pool.findBeside? index constant = pool'.findBeside? index constant := by
  cases constant <;> simp [findBeside?, h]

theorem find?_remember {pool : ConstantPool} {index found : ConstantIndex} {constant other : Constant}
    (h : (pool.remember index constant).find? other = some found) :
    (other = constant ∧ found = index) ∨ pool.find? other = some found := by
  rw [find?_remember_eq] at h
  split at h
  · rename_i hsame
    cases hold : pool.find? other with
    | some old => exact .inr (by simpa [hold] using h)
    | none => exact .inl ⟨hsame.1, by simpa [hold] using h.symm⟩
  · exact .inr h

/-- Whatever is forgotten at an index, texts are not. -/
theorem find?_forget {pool : ConstantPool} {index found : ConstantIndex} {constant : Constant}
    (h : (pool.forget index).find? constant = some found) :
    pool.find? constant = some found ∧ ((∃ text, constant = .utf8 text) ∨ found ≠ index) := by
  rw [find?_forget_eq] at h
  cases constant with
  | utf8 text => exact ⟨h, .inl ⟨text, rfl⟩⟩
  | classRef name => simpa [findBeside?, Option.filter_eq_some_iff] using h
  | nameAndType name descriptor => simpa [findBeside?, Option.filter_eq_some_iff] using h
  | _ => cases h

/-! ## Soundness -/

/-- All indices fit, and what the maps find is there. -/
structure Sound (pool : ConstantPool) : Prop where
  ordered : pool.constants.Ordered
  fits : pool.constants.nextOffset ≤ limit
  found {constant : Constant} {index : ConstantIndex} :
    pool.find? constant = some index → pool.constantAt index = .ok constant

/-- All the constants of the first pool are in the second. -/
def Grows (pool later : ConstantPool) : Prop :=
  ∀ index constant, pool.constantAt index = .ok constant → later.constantAt index = .ok constant

theorem constantAt_eq_ok_iff {pool : ConstantPool} {index : ConstantIndex} {constant : Constant} :
    pool.constantAt index = .ok constant ↔ pool.constants.get? index.toNat = some constant := by
  unfold constantAt
  split <;> simp_all

theorem textAt_eq_ok_iff {pool : ConstantPool} {index : ConstantIndex} {text : String} :
    pool.textAt index = .ok text ↔ pool.constantAt index = .ok (.utf8 text) := by
  unfold textAt
  rcases pool.constantAt index with fault | constant
  · exact ⟨fun h => (nomatch h), fun h => (nomatch h)⟩
  · cases constant <;> simp [bind, Except.bind, pure, Except.pure, throw, throwThe, MonadExceptOf.throw]

theorem classNameAt_eq_ok_iff {pool : ConstantPool} {index : ConstantIndex} {name : String} :
    pool.classNameAt index = .ok name ↔
      ∃ text, pool.constantAt index = .ok (.classRef text) ∧ pool.textAt text = .ok name := by
  unfold classNameAt
  rcases pool.constantAt index with fault | constant
  · exact ⟨fun h => (nomatch h), fun ⟨_, h, _⟩ => (nomatch h)⟩
  · cases constant <;> simp [bind, Except.bind, throw, throwThe, MonadExceptOf.throw]

variable {pool : ConstantPool} {constant : Constant}

theorem toNat_ofNat_nextOffset (h : pool.constants.nextOffset ≤ limit) :
    (UInt16.ofNat pool.constants.nextOffset).toNat = pool.constants.nextOffset := by
  exact UInt16.toNat_ofNat_of_lt' (Nat.lt_succ_of_le h)

/-- A constant that is appended stands at the next offset, and the others stay. -/
theorem constantAt_store (h : pool.constants.Ordered) (index : ConstantIndex) :
    (pool.store constant).constantAt index =
      if index.toNat = pool.constants.nextOffset then .ok constant else pool.constantAt index := by
  unfold constantAt
  rw [constants_store, OffsetVector.get?_push h constant.width_pos]
  by_cases hlast : index.toNat = pool.constants.nextOffset
  · rw [if_pos hlast, if_pos hlast]
  · rw [if_neg hlast, if_neg hlast]

theorem grows_store (h : pool.constants.Ordered) : pool.Grows (pool.store constant) := by
  intro index found hfound
  rw [constantAt_store h, if_neg]
  · exact hfound
  · intro heq
    rw [constantAt_eq_ok_iff, OffsetVector.get?_eq_some_iff h] at hfound
    exact absurd heq (Nat.ne_of_lt (h.below _ hfound))

theorem constantAt_nextOffset_store (h : pool.constants.Ordered) (hfits : pool.constants.nextOffset ≤ limit) :
    (pool.store constant).constantAt (UInt16.ofNat pool.constants.nextOffset) = .ok constant := by
  rw [constantAt_store h, toNat_ofNat_nextOffset hfits, if_pos rfl]

theorem sound_store (h : pool.Sound) (hfits : pool.constants.nextOffset + width constant ≤ limit) :
    (pool.store constant).Sound where
  ordered := by
    rw [constants_store]
    exact OffsetVector.ordered_push h.ordered constant.width_pos
  fits := by rwa [nextOffset_store]
  found := by
    intro other index hfound
    rcases find?_remember hfound with ⟨rfl, rfl⟩ | hold
    · exact constantAt_nextOffset_store h.ordered h.fits
    · exact grows_store h.ordered _ _ (h.found hold)

theorem sound_empty : empty.Sound where
  ordered := OffsetVector.ordered_startingAt 1
  fits := by decide
  found := by
    intro constant index hfound
    cases constant <;> simp [find?, empty] at hfound

/-! ## Indices -/

theorem mem_of_constantAt (h : pool.Sound) {index : ConstantIndex} (hc : pool.constantAt index = .ok constant) :
    (index.toNat, constant) ∈ pool.constants.toList :=
  (OffsetVector.get?_eq_some_iff h.ordered).1 (constantAt_eq_ok_iff.1 hc)

theorem toNat_ofNat_of_mem (h : pool.Sound) {entry : Nat × Constant} (hmem : entry ∈ pool.constants.toList) :
    (UInt16.ofNat entry.1).toNat = entry.1 := by
  exact UInt16.toNat_ofNat_of_lt' (Nat.lt_of_lt_of_le (h.ordered.below entry hmem) (Nat.le_succ_of_le h.fits))

theorem constantAt_of_mem (h : pool.Sound) {entry : Nat × Constant} (hmem : entry ∈ pool.constants.toList) :
    pool.constantAt (UInt16.ofNat entry.1) = .ok entry.2 := by
  rw [constantAt_eq_ok_iff, OffsetVector.get?_eq_some_iff h.ordered, toNat_ofNat_of_mem h hmem]
  exact hmem

/-- No two constants have the same index. -/
theorem nodup_indices (h : pool.Sound) :
    (pool.constants.toList.map fun entry => UInt16.ofNat entry.1).Nodup := by
  rw [List.Nodup, List.pairwise_map]
  refine h.ordered.increasing.imp_of_mem fun ha hb hlt heq => ?_
  have hsame := congrArg UInt16.toNat heq
  rw [toNat_ofNat_of_mem h ha, toNat_ofNat_of_mem h hb] at hsame
  exact Nat.ne_of_lt hlt hsame

/-! ## Replacing -/

/-- The pool with another constant at an index, which is found there and not as what it was. -/
def exchange (pool : ConstantPool) (index : ConstantIndex) (constant : Constant) : ConstantPool :=
  { (pool.forget index).remember index constant with
    constants := pool.constants.set index.toNat constant }

theorem find?_exchange_eq (index : ConstantIndex) (constant other : Constant) :
    (pool.exchange index constant).find? other = ((pool.forget index).remember index constant).find? other := by
  cases other <;> rfl

theorem find?_exchange {index found : ConstantIndex} {other : Constant}
    (h : (pool.exchange index constant).find? other = some found) :
    (other = constant ∧ found = index) ∨
      pool.find? other = some found ∧ ((∃ text, other = .utf8 text) ∨ found ≠ index) := by
  rw [find?_exchange_eq] at h
  exact (find?_remember h).imp_right find?_forget

theorem constantAt_exchange {index : ConstantIndex} (h : pool.constants.Ordered)
    (hfault : pool.constants.setFault? index.toNat constant = none) (other : ConstantIndex) :
    (pool.exchange index constant).constantAt other =
      if other = index then .ok constant else pool.constantAt other := by
  unfold constantAt exchange
  rw [OffsetVector.get?_set h hfault]
  by_cases heq : other = index
  · simp [heq]
  · have hne : other.toNat ≠ index.toNat := fun hsame => heq (UInt16.toNat_inj.1 hsame)
    rw [if_neg hne, if_neg heq]

/-- The maps never forget a text, so none may be replaced. -/
theorem sound_exchange {index : ConstantIndex} (h : pool.Sound)
    (hplain : ∀ text, pool.constantAt index ≠ .ok (.utf8 text))
    (hfault : pool.constants.setFault? index.toNat constant = none) : (pool.exchange index constant).Sound where
  ordered := OffsetVector.ordered_set h.ordered hfault
  fits := by
    rw [exchange, OffsetVector.nextOffset_set]
    exact h.fits
  found := by
    intro other found hfound
    rw [constantAt_exchange h.ordered hfault]
    rcases find?_exchange hfound with ⟨rfl, rfl⟩ | ⟨hold, hkept⟩
    · rw [if_pos rfl]
    · have hthere := h.found hold
      rw [if_neg, hthere]
      rintro rfl
      rcases hkept with ⟨text, rfl⟩ | hne
      · exact hplain text hthere
      · exact hne rfl

/-! ## Reading -/

/-- A run of reading stores the constants that it reads in turn. -/
theorem exists_chain_of_decodeLoop {count : Nat} {bytes rest : Bytes} {result : ConstantPool}
    (hrun : decodeLoop count pool bytes = .ok (result, rest)) :
    ∃ constants, Decoder.Chain Constant.decode bytes constants rest ∧ result = constants.foldl store pool := by
  fun_induction decodeLoop count pool bytes with
  | case1 => cases hrun
  | case2 pool bytes _ constant after hdecode ih =>
    obtain ⟨constants, hchain, rfl⟩ := ih hrun
    exact ⟨constant :: constants, .cons hdecode hchain, rfl⟩
  | case3 =>
    cases hrun
    exact ⟨[], .nil _, rfl⟩

/-- The constants of a pool that is read, which end where the count says. -/
theorem exists_of_decode {bytes rest : Bytes} (h : decode bytes = .ok (pool, rest)) :
    ∃ count middle constants, Decoder.u16 bytes = .ok (count, middle) ∧
      Decoder.Chain Constant.decode middle constants rest ∧ pool = constants.foldl store empty ∧
      pool.constants.nextOffset = count.toNat := by
  obtain ⟨count, middle, hcount, h⟩ := Decoder.bind_eq_ok_iff.1 h
  obtain ⟨read, after, hloop, h⟩ := Decoder.bind_eq_ok_iff.1 h
  split at h
  · rename_i hend
    obtain ⟨rfl, rfl⟩ := Decoder.pure_eq_ok_iff.1 h
    obtain ⟨constants, hchain, hread⟩ := exists_chain_of_decodeLoop hloop
    exact ⟨count, middle, constants, hcount, hchain, hread, hend⟩
  · cases h

theorem nextOffset_le_foldl_store (pool : ConstantPool) (constants : List Constant) :
    pool.constants.nextOffset ≤ (constants.foldl store pool).constants.nextOffset := by
  induction constants generalizing pool with
  | nil => exact Nat.le_refl _
  | cons constant constants ih =>
    have hstored := ih (pool.store constant)
    rw [nextOffset_store] at hstored
    exact Nat.le_trans (Nat.le_add_right _ _) hstored

theorem sound_foldl_store {constants : List Constant} (h : pool.Sound)
    (hfits : (constants.foldl store pool).constants.nextOffset ≤ limit) : (constants.foldl store pool).Sound := by
  induction constants generalizing pool with
  | nil => exact h
  | cons constant constants ih =>
    refine ih (sound_store h ?_) hfits
    rw [← nextOffset_store]
    exact Nat.le_trans (nextOffset_le_foldl_store _ constants) hfits

theorem fits_of_decode {bytes rest : Bytes} (h : decode bytes = .ok (pool, rest)) :
    pool.constants.nextOffset ≤ limit := by
  obtain ⟨count, -, -, -, -, -, hend⟩ := exists_of_decode h
  rw [hend]
  exact Nat.le_of_lt_succ count.toNat_lt

/-- A pool that is read from bytes is sound. -/
theorem sound_of_decode {bytes rest : Bytes} (h : decode bytes = .ok (pool, rest)) : pool.Sound := by
  obtain ⟨-, -, constants, -, -, rfl, -⟩ := exists_of_decode h
  exact sound_foldl_store sound_empty (fits_of_decode h)

end ConstantPool

/-! ## Actions -/

namespace PoolAction

open ConstantPool

variable {pool after : ConstantPool} {index : ConstantIndex} {constant : Constant}

theorem outcome_append (constant : Constant) (pool : ConstantPool) :
    outcome (append constant) pool =
      match pool.appendFault? constant with
      | some fault => (.error fault, pool)
      | none => (.ok (UInt16.ofNat pool.constants.nextOffset), pool.store constant) := by
  rw [append, outcome_bind, outcome_get]
  cases hfault : pool.appendFault? constant with
  | some fault =>
    simp only [hfault]
    rfl
  | none =>
    simp only [hfault]
    rfl

theorem fits_of_appendFault? (h : pool.appendFault? constant = none) :
    pool.constants.nextOffset + width constant ≤ limit := by
  simp only [appendFault?, Option.orElse_eq_orElse, Option.orElse_eq_or, Option.or_eq_none_iff] at h
  obtain ⟨-, h⟩ := h
  split at h
  · assumption
  · cases h

theorem outcome_append_ok (h : pool.Sound) (hrun : outcome (append constant) pool = (.ok index, after)) :
    after.Sound ∧ pool.Grows after ∧ after.constantAt index = .ok constant := by
  rw [outcome_append] at hrun
  split at hrun
  · cases hrun
  · rename_i hfault
    cases hrun
    exact ⟨sound_store h (fits_of_appendFault? hfault), grows_store h.ordered,
      constantAt_nextOffset_store h.ordered h.fits⟩

theorem outcome_text_of_found {content : String} (h : pool.texts[content]? = some index) :
    outcome (text content) pool = (.ok index, pool) := by
  rw [text, outcome_bind, outcome_get]
  simp only [h, outcome_pure]

theorem outcome_text_of_new {content : String} (h : pool.texts[content]? = none) :
    outcome (text content) pool = outcome (append (.utf8 content)) pool := by
  rw [text, outcome_bind, outcome_get]
  simp only [h]

/-- A text is found, or else appended. -/
theorem text_eq_ok {content : String} (hrun : outcome (text content) pool = (.ok index, after)) :
    (pool.texts[content]? = some index ∧ after = pool) ∨
      outcome (append (.utf8 content)) pool = (.ok index, after) := by
  rw [text, outcome_bind, outcome_get] at hrun
  dsimp only at hrun
  split at hrun
  · rename_i found hfound
    cases hrun
    exact .inl ⟨hfound, rfl⟩
  · exact .inr hrun

theorem outcome_text_ok (h : pool.Sound) {content : String}
    (hrun : outcome (text content) pool = (.ok index, after)) :
    after.Sound ∧ pool.Grows after ∧ after.constantAt index = .ok (.utf8 content) := by
  rcases text_eq_ok hrun with ⟨hfound, rfl⟩ | happend
  · exact ⟨h, fun _ _ hold => hold, h.found hfound⟩
  · exact outcome_append_ok h happend

theorem outcome_replace (index : ConstantIndex) (constant : Constant) (pool : ConstantPool) :
    outcome (replace index constant) pool =
      match pool.constants.setFault? index.toNat constant with
      | none => (.ok (), pool.exchange index constant)
      | some (.incompatibleWidth _ _) =>
        (.error (.malformed (.widthChange index)), (pool.forget index).remember index constant)
      | some (.misplaced _) => (.error (.missingConstant index), (pool.forget index).remember index constant) := by
  have hsame : ((pool.forget index).remember index constant).constants = pool.constants := constants_remember _ _ _
  rw [replace, outcome_bind, outcome_modify]
  dsimp only
  rw [outcome_bind, outcome_get]
  dsimp only
  rw [hsame]
  generalize pool.constants.setFault? index.toNat constant = fault?
  rcases fault? with _ | (position | ⟨new, old⟩)
  · dsimp only
    rw [outcome_modify, hsame]
    rfl
  · rfl
  · rfl

theorem replace_eq_ok (hrun : outcome (replace index constant) pool = (.ok (), after)) :
    pool.constants.setFault? index.toNat constant = none ∧ after = pool.exchange index constant := by
  rw [outcome_replace] at hrun
  split at hrun
  · rename_i hfault
    cases hrun
    exact ⟨hfault, rfl⟩
  · cases hrun
  · cases hrun

/-- A constant that is no text is replaced, and no other one changes. -/
theorem outcome_replace_ok (h : pool.Sound) (hplain : ∀ content, pool.constantAt index ≠ .ok (.utf8 content))
    (hrun : outcome (replace index constant) pool = (.ok (), after)) :
    after.Sound ∧
      ∀ other, after.constantAt other = if other = index then .ok constant else pool.constantAt other := by
  obtain ⟨hfault, rfl⟩ := replace_eq_ok hrun
  exact ⟨sound_exchange h hplain hfault, constantAt_exchange h.ordered hfault⟩

end PoolAction

end ClassSandbox
