import ClassSandbox.OffsetVector

/-!
# Offsets in order

A vector that is built by `push` from elements that are not empty is `Ordered`: its offsets increase, up to
`nextOffset`. Then an offset finds the element that stands at it in the view (`get?_eq_some_iff`), `push` adds
one (`get?_push`), and `set` changes one and moves none (`get?_set`, `offsets_set`).
-/

namespace ClassSandbox.OffsetVector

variable {α : Type}

/-- The offsets increase, and end before the next one. -/
structure Ordered (v : OffsetVector α) : Prop where
  increasing : v.toList.Pairwise fun a b => a.1 < b.1
  below : ∀ entry ∈ v.toList, entry.1 < v.nextOffset

theorem ordered_startingAt (offset : Nat) : (startingAt offset : OffsetVector α).Ordered :=
  ⟨.nil, fun _ h => nomatch h⟩

/-! ## Finding -/

variable {v : OffsetVector α} {offset : Nat} {x : α}

/-- The search for an offset at which there is an element ends after this element. -/
theorem countUpTo_of_getElem? (h : v.Ordered) {position : Nat} (hx : v.entries[position]? = some (offset, x)) :
    v.countUpTo offset = position + 1 := by
  rw [← Array.getElem?_toList] at hx
  obtain ⟨hlt, hat⟩ : ∃ hlt : position < v.toList.length, v.toList[position] = (offset, x) :=
    List.getElem?_eq_some_iff.1 hx
  have hsplit : v.toList = v.toList.take position ++ (offset, x) :: v.toList.drop (position + 1) := by
    rw [← hat, ← List.drop_eq_getElem_cons hlt, List.take_append_drop]
  have hsorted := h.increasing
  rw [hsplit, List.pairwise_append, List.pairwise_cons] at hsorted
  obtain ⟨-, ⟨hback, -⟩, hfront⟩ := hsorted
  have hle : ∀ entry ∈ v.toList.take position, decide (entry.1 ≤ offset) = true := fun entry hmem =>
    decide_eq_true (Nat.le_of_lt (hfront entry hmem (offset, x) List.mem_cons_self))
  have hgt : ∀ entry ∈ v.toList.drop (position + 1), ¬ decide (entry.1 ≤ offset) = true := fun entry hmem =>
    of_decide_eq_false (p := _) (by simpa using hback entry hmem)
  rw [countUpTo_eq v offset (h.increasing.imp Nat.le_of_lt), hsplit, List.filter_append,
    List.filter_eq_self.2 hle, List.filter_cons_of_pos (by simp), List.filter_eq_nil_iff.2 hgt,
    List.length_append, List.length_take, List.length_singleton]
  omega

/-- An element is found at its offset, at its position. -/
theorem get_eq_ok_iff (h : v.Ordered) {position : Nat} :
    v.get offset = .ok (position, x) ↔ v.entries[position]? = some (offset, x) := by
  constructor
  · intro hget
    unfold get at hget
    split at hget
    · rename_i start hlocate
      split at hget
      · rename_i found element hentry
        cases hget
        simp only [locate] at hlocate
        split at hlocate
        · rename_i hat
          cases hlocate
          rw [hentry] at hat
          have hfound : found = offset := Option.some.inj hat.1
          rw [hentry, hfound]
        · split at hlocate <;> cases hlocate
      · cases hget
    · cases hget
  · intro hx
    have hlocate : v.locate offset = .start position := by
      simp [locate, countUpTo_of_getElem? h hx, hx]
    simp only [get, hlocate, hx]

theorem get?_eq_some_iff (h : v.Ordered) : v.get? offset = some x ↔ (offset, x) ∈ v.toList := by
  rw [toList, Array.mem_toList_iff, Array.mem_iff_getElem?]
  simp only [← get_eq_ok_iff h]
  unfold get?
  cases hget : v.get offset with
  | error position => simp [Except.toOption]
  | ok found =>
    obtain ⟨position, element⟩ := found
    constructor
    · intro heq
      cases heq
      exact ⟨position, rfl⟩
    · rintro ⟨_, heq⟩
      cases heq
      rfl

/-- Any other offset is beyond all elements, or inside behind those that start before it. -/
theorem get_of_missed (hordered : v.Ordered) (hmiss : offset ∉ v.toList.map Prod.fst) :
    v.get offset = .error (if ∀ start ∈ v.toList.map Prod.fst, start < offset then .beyond
      else .inside ((v.toList.map Prod.fst).countP (· < offset))) := by
  have hcount : v.countUpTo offset = (v.toList.map Prod.fst).countP (· < offset) := by
    rw [countUpTo_eq v offset (hordered.increasing.imp Nat.le_of_lt), ← List.countP_eq_length_filter, List.countP_map]
    refine List.countP_congr fun entry hmem => ?_
    have hne : entry.1 ≠ offset := fun heq => hmiss (heq ▸ List.mem_map_of_mem hmem)
    simp only [Function.comp_apply, decide_eq_true_eq]
    omega
  have hother : (v.entries[v.countUpTo offset - 1]?.map Prod.fst) ≠ some offset := by
    intro hsome
    obtain ⟨entry, hentry, hfst⟩ := Option.map_eq_some_iff.1 hsome
    exact hmiss (hfst ▸ List.mem_map_of_mem (Array.mem_toList_iff.2 (Array.mem_of_getElem? hentry)))
  have hall : v.countUpTo offset = v.size ↔ ∀ start ∈ v.toList.map Prod.fst, start < offset := by
    have hsize : v.size = (v.toList.map Prod.fst).length := by simp [size, toList]
    rw [hcount, hsize, List.countP_eq_length]
    simp only [decide_eq_true_eq]
  have hlocate : v.locate offset = if v.countUpTo offset = v.size then .beyond else .inside (v.countUpTo offset) := by
    rw [locate, if_neg fun h => hother h.1]
  by_cases hbefore : ∀ start ∈ v.toList.map Prod.fst, start < offset
  · rw [if_pos (hall.2 hbefore)] at hlocate
    rw [if_pos hbefore, get, hlocate]
  · rw [if_neg (mt hall.1 hbefore), hcount] at hlocate
    rw [if_neg hbefore, get, hlocate]

/-! ## Changing -/

variable [HasWidth α]

theorem ordered_push (h : v.Ordered) (hwidth : 0 < width x) : (v.push x).Ordered := by
  constructor
  · rw [toList_push, List.pairwise_append]
    refine ⟨h.increasing, List.pairwise_singleton _ _, fun entry hmem last hlast => ?_⟩
    rw [List.mem_singleton.1 hlast]
    exact h.below entry hmem
  · intro entry hmem
    rw [toList_push, List.mem_append, List.mem_singleton] at hmem
    change entry.1 < v.nextOffset + width x
    rcases hmem with hmem | rfl
    · have := h.below entry hmem
      omega
    · exact Nat.lt_add_of_pos_right hwidth

theorem get?_push (h : v.Ordered) (hwidth : 0 < width x) (other : Nat) :
    (v.push x).get? other = if other = v.nextOffset then some x else v.get? other := by
  apply Option.ext
  intro y
  rw [get?_eq_some_iff (ordered_push h hwidth), toList_push, List.mem_append, List.mem_singleton,
    ← get?_eq_some_iff h]
  split
  · rename_i heq
    subst heq
    have hnew : v.get? v.nextOffset = none := Option.eq_none_iff_forall_ne_some.2 fun z hz =>
      Nat.lt_irrefl _ (h.below _ ((get?_eq_some_iff h).1 hz))
    simp [hnew, eq_comm]
  · rename_i hne
    simp [hne]

/-- An element that fits takes the place of one of the same width. -/
theorem exists_of_setFault?_eq_none (h : v.Ordered) (hfault : v.setFault? offset x = none) :
    ∃ position old, v.entries[position]? = some (offset, old) ∧ width old = width x ∧
      v.set offset x = { v with entries := v.entries.setIfInBounds position (offset, x) } := by
  unfold setFault? at hfault
  split at hfault
  · cases hfault
  · rename_i position old hget
    have hentry := (get_eq_ok_iff h).1 hget
    split at hfault
    · rename_i hwidth
      refine ⟨position, old, hentry, hwidth, ?_⟩
      simp [set, setFault?, hget, hwidth, countUpTo_of_getElem? h hentry]
    · cases hfault

/-- Setting an element moves none. -/
theorem offsets_set (h : v.Ordered) (hfault : v.setFault? offset x = none) :
    (v.set offset x).toList.map Prod.fst = v.toList.map Prod.fst := by
  obtain ⟨position, old, hentry, -, hset⟩ := exists_of_setFault?_eq_none h hfault
  obtain ⟨hlt, hat⟩ := Array.getElem?_eq_some_iff.1 hentry
  have hlt' : position < (v.toList.map Prod.fst).length := by simpa [toList] using hlt
  have hoffset : (v.toList.map Prod.fst)[position] = offset := by simp [toList, hat]
  have hmap : (v.set offset x).toList.map Prod.fst = (v.toList.map Prod.fst).set position offset := by
    rw [hset]
    simp [toList, List.map_set]
  rw [hmap, ← hoffset, List.set_getElem_self]

theorem nextOffset_set : (v.set offset x).nextOffset = v.nextOffset := by
  unfold set
  split <;> rfl

theorem ordered_set (h : v.Ordered) (hfault : v.setFault? offset x = none) : (v.set offset x).Ordered := by
  have hsame := offsets_set h hfault
  constructor
  · have hsorted := List.pairwise_map.2 h.increasing
    rw [← hsame] at hsorted
    exact List.pairwise_map.1 hsorted
  · intro entry hmem
    have hfst := List.mem_map_of_mem (f := Prod.fst) hmem
    rw [hsame] at hfst
    obtain ⟨before, hbefore, heq⟩ := List.mem_map.1 hfst
    rw [nextOffset_set, ← heq]
    exact h.below before hbefore

theorem get?_set (h : v.Ordered) (hfault : v.setFault? offset x = none) (other : Nat) :
    (v.set offset x).get? other = if other = offset then some x else v.get? other := by
  obtain ⟨position, old, hentry, -, hset⟩ := exists_of_setFault?_eq_none h hfault
  obtain ⟨hlt, -⟩ := Array.getElem?_eq_some_iff.1 hentry
  have hat : ∀ i : Nat,
      (v.set offset x).entries[i]? = if position = i then some (offset, x) else v.entries[i]? := by
    intro i
    rw [hset, Array.getElem?_setIfInBounds]
    simp [hlt]
  split
  · rename_i heq
    rw [heq, get?_eq_some_iff (ordered_set h hfault), toList, Array.mem_toList_iff]
    exact Array.mem_of_getElem? (by rw [hat, if_pos rfl])
  · rename_i hne
    apply Option.ext
    intro y
    rw [get?_eq_some_iff (ordered_set h hfault), get?_eq_some_iff h, toList, toList, Array.mem_toList_iff,
      Array.mem_toList_iff, Array.mem_iff_getElem?, Array.mem_iff_getElem?]
    refine exists_congr fun i => ?_
    rw [hat]
    split
    · rename_i hi
      rw [← hi, hentry]
      simp [Ne.symm hne]
    · rfl

end ClassSandbox.OffsetVector
