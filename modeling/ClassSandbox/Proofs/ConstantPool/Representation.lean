import ClassSandbox.Proofs.ConstantPool.Failure

/-!
# How pools are laid out

The constants of a pool that is `Built` by its operations stand one after another from the index one on, and all of
their indices fit (`Built.represented`). So an offset is never cut off where it becomes an index: not when a constant
is appended, not when the pool is written, and not in any state that the reading of a pool comes through
(`Reading`). An index finds a constant when one starts there, and what it finds stays until it is replaced: a
pool `Spares` an index if no operation puts another constant there.
-/

namespace ClassSandbox.ConstantPool

open OffsetVector PoolAction

variable {pool later after : ConstantPool} {index other : ConstantIndex} {constant : Constant}

/-! ## Indices -/

theorem constantAt_eq_ok_iff_exists (h : pool.Numbered) :
    pool.constantAt index = .ok constant ↔
      ∃ k, pool.constants.elements[k]? = some constant ∧
        index.toNat = 1 + totalWidth (pool.constants.elements.take k) := by
  rw [constantAt_eq_ok_iff, get?_eq_some_iff h.ordered, h.packed.toList, List.mem_iff_getElem?]
  simp only [getElem?_place, Option.map_eq_some_iff, Prod.mk.injEq]
  constructor
  · rintro ⟨k, found, hfound, hindex, rfl⟩
    exact ⟨k, hfound, hindex.symm⟩
  · rintro ⟨k, hfound, hindex⟩
    exact ⟨k, constant, hfound, hindex.symm, rfl⟩

theorem constantAt_eq_error (h : ∀ constant, pool.constantAt index ≠ .ok constant) :
    pool.constantAt index = .error (.missingConstant index) := by
  unfold constantAt at h ⊢
  split
  · rename_i found hfound
    exact absurd (by rw [hfound]) (h found)
  · rfl

/-- The slots that a wide constant takes besides its first one are no indices. -/
theorem constantAt_of_inside (h : pool.Numbered) (hat : pool.constantAt index = .ok constant)
    (hafter : index.toNat < other.toNat) (hbefore : other.toNat < index.toNat + width constant) :
    pool.constantAt other = .error (.missingConstant other) := by
  refine constantAt_eq_error fun found hfound => ?_
  obtain ⟨k, hk, hindex⟩ := (constantAt_eq_ok_iff_exists h).1 hat
  obtain ⟨i, -, hother⟩ := (constantAt_eq_ok_iff_exists h).1 hfound
  rcases Nat.lt_or_ge k i with hlt | hle
  · have hwidth := totalWidth_take_succ hk
    have hnext := totalWidth_take_le (Nat.succ_le_of_lt hlt) pool.constants.elements
    rw [Nat.succ_eq_add_one] at hnext
    omega
  · have hearlier := totalWidth_take_le hle pool.constants.elements
    omega

theorem constantAt_zero (h : pool.Numbered) : pool.constantAt 0 = .error (.missingConstant 0) := by
  refine constantAt_eq_error fun found hfound => ?_
  obtain ⟨k, -, hindex⟩ := (constantAt_eq_ok_iff_exists h).1 hfound
  have hzero : (0 : ConstantIndex).toNat = 0 := rfl
  omega

theorem toNat_of_append (h : pool.Numbered) (hrun : outcome (append constant) pool = (.ok index, after)) :
    index.toNat = pool.constants.nextOffset ∧ after.constantAt index = .ok constant := by
  rw [outcome_append] at hrun
  split at hrun
  · cases hrun
  · cases hrun
    exact ⟨toNat_ofNat_nextOffset h.fits, constantAt_nextOffset_store h.ordered h.fits⟩

/-! ## What an index finds later -/

/-- The second pool comes from the first one by operations with any outcomes, none of which replaces the constant at
an index. -/
inductive Spares (index : ConstantIndex) (pool : ConstantPool) : ConstantPool → Prop where
  | refl : Spares index pool pool
  | added {later : ConstantPool} {α : Type} {action : PoolAction α} (before : Spares index pool later)
      (addition : Addition action) : Spares index pool (outcome action later).2
  | elsewhere {later : ConstantPool} {other : ConstantIndex} {constant : Constant}
      (before : Spares index pool later) (ne : other ≠ index) :
      Spares index pool (outcome (replace other constant) later).2
  | failed {later after : ConstantPool} {other : ConstantIndex} {constant : Constant} {fault : ClassFault}
      (before : Spares index pool later) (run : outcome (replace other constant) later = (.error fault, after)) :
      Spares index pool after

/-- The pool is numbered, and finds a constant at an index. -/
structure Holds (pool : ConstantPool) (index : ConstantIndex) (constant : Constant) : Prop where
  numbered : pool.Numbered
  at_index : pool.constantAt index = .ok constant

theorem append_keeps_holds (added : Constant) : Keeps (append added) fun pool => pool.Holds index constant := by
  intro pool h
  refine ⟨append_keeps added pool h.numbered, ?_⟩
  rw [outcome_append]
  split
  · exact h.at_index
  · exact grows_store h.numbered.ordered _ _ h.at_index

theorem constantAt_congr (h : later.constants = pool.constants) : later.constantAt index = pool.constantAt index := by
  rw [constantAt, constantAt, h]

/-- A replacement at one index leaves what is found at the others. -/
theorem replace_keeps_holds (hne : other ≠ index) (new : Constant) :
    Keeps (replace other new) fun pool => pool.Holds index constant := by
  intro pool h
  refine ⟨replace_keeps other new pool h.numbered, ?_⟩
  rcases hrun : outcome (replace other new) pool with ⟨fault | ⟨⟩, after⟩
  · exact (constantAt_congr (constants_of_replace_eq_error hrun)).trans h.at_index
  · obtain ⟨hfault, rfl⟩ := replace_eq_ok hrun
    rw [constantAt_exchange h.numbered.ordered hfault, if_neg (Ne.symm hne), h.at_index]

theorem Spares.holds (h : Spares index pool later) (hpool : pool.Holds index constant) :
    later.Holds index constant := by
  induction h with
  | refl => exact hpool
  | added _ addition ih => exact addition.keeps append_keeps_holds _ ih
  | elsewhere _ ne ih => exact replace_keeps_holds ne _ _ ih
  | @failed later after other new fault _ run ih =>
    have hnumbered := replace_keeps other new later ih.numbered
    rw [run] at hnumbered
    exact ⟨hnumbered, (constantAt_congr (constants_of_replace_eq_error run)).trans ih.at_index⟩

/-! ## Representation -/

/-- The constants one after another from one on, and what that means for indices. -/
structure Represented (pool : ConstantPool) : Prop where
  /-- A constant stands at one plus the widths of those before it. -/
  placed (k : Nat) : pool.constants.toList[k]? = pool.constants.elements[k]?.map fun constant =>
    (1 + totalWidth (pool.constants.elements.take k), constant)
  nextOffset : pool.constants.nextOffset = 1 + totalWidth pool.constants.elements
  fits : pool.constants.nextOffset ≤ limit
  /-- Where a constant stands is its index. -/
  indices : ∀ entry ∈ pool.constants.toList, (UInt16.ofNat entry.1).toNat = entry.1
  /-- What is appended gets the next offset as its index. -/
  append {constant : Constant} {index : ConstantIndex} {after : ConstantPool} :
    outcome (append constant) pool = (.ok index, after) →
      index.toNat = pool.constants.nextOffset ∧ after.constantAt index = .ok constant
  /-- The next offset is what is written in front of the constants. -/
  encode {bytes : Bytes} : pool.encode = .ok bytes →
    ∃ count body, bytes = Encoder.u16 count ++ body ∧ count.toNat = pool.constants.nextOffset
  found {index : ConstantIndex} {constant : Constant} :
    pool.constantAt index = .ok constant ↔
      ∃ k, pool.constants.elements[k]? = some constant ∧
        index.toNat = 1 + totalWidth (pool.constants.elements.take k)
  zero : pool.constantAt 0 = .error (.missingConstant 0)
  /-- Nothing is found at the second slot of a wide constant. -/
  inside {index other : ConstantIndex} {constant : Constant} : pool.constantAt index = .ok constant →
    index.toNat < other.toNat → other.toNat < index.toNat + width constant →
      pool.constantAt other = .error (.missingConstant other)
  stays {index : ConstantIndex} {constant : Constant} {later : ConstantPool} :
    pool.constantAt index = .ok constant → Spares index pool later → later.constantAt index = .ok constant

theorem Built.represented (h : pool.Built) : pool.Represented := by
  have hnumbered := h.numbered
  have hpacked := hnumbered.packed
  refine
    { placed := fun k => by rw [hpacked.toList, getElem?_place]
      nextOffset := hpacked.nextOffset
      fits := hnumbered.fits
      indices := fun entry hmem => ?_
      append := toNat_of_append hnumbered
      encode := fun hbytes => ?_
      found := constantAt_eq_ok_iff_exists hnumbered
      zero := constantAt_zero hnumbered
      inside := constantAt_of_inside hnumbered
      stays := fun hat hspares => (hspares.holds ⟨hnumbered, hat⟩).at_index }
  · have hbelow := hnumbered.ordered.below entry hmem
    exact UInt16.toNat_ofNat_of_lt' (Nat.lt_of_lt_of_le hbelow (Nat.le_succ_of_le hnumbered.fits))
  · obtain ⟨parts, -, rfl⟩ := encode_eq_ok hbytes
    exact ⟨_, _, rfl, toNat_ofNat_nextOffset hnumbered.fits⟩

/-! ## Reading -/

/-- The states that the reading of constants comes through: the pool so far, and the bytes that are left. -/
inductive Reading (count : UInt16) (bytes : Bytes) : ConstantPool → Bytes → Prop where
  | start : Reading count bytes empty bytes
  | next {pool : ConstantPool} {constant : Constant} {rest rest' : Bytes} (before : Reading count bytes pool rest)
      (more : pool.constants.nextOffset < count.toNat) (read : Constant.decode rest = .ok (constant, rest')) :
      Reading count bytes (pool.store constant) rest'

/-- Reading goes on from each of the states. -/
theorem Reading.decodeLoop_eq {count : UInt16} {bytes rest : Bytes} (h : Reading count bytes pool rest) :
    decodeLoop count.toNat empty bytes = decodeLoop count.toNat pool rest := by
  induction h with
  | start => rfl
  | @next pool constant rest rest' _ more read ih =>
    rw [ih, decodeLoop, if_pos more, read]

/-- The constants are laid out on the way as in the end, and only the last one may reach beyond the count. -/
theorem Reading.packed {count : UInt16} {bytes rest : Bytes} (h : Reading count bytes pool rest) :
    pool.constants.Packed 1 := by
  induction h with
  | start => exact packed_startingAt 1
  | next _ _ _ ih =>
    rw [constants_store]
    exact packed_push ih

end ClassSandbox.ConstantPool
