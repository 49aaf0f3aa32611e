/-!
# Vectors with offsets

An `OffsetVector` is a sequence of elements of different widths. The offset of an element is the offset at
which the vector starts plus the widths of the elements before it, so a wide element covers several
offsets, and only the first of them finds it. Constant pools are such vectors: they start at one, and some
constants are two wide.

`push` appends, `get` and `set` find an element by its offset, `setFault?` says what speaks against setting
one, and `countUpTo` is the binary search that they share. A `Cursor` is an iteration under way, which goes
on from either end. `toList` is the view with which the operations are described.
-/

namespace ClassSandbox

class HasWidth (α : Type) where
  width : α → Nat

export HasWidth (width)

/-- Each element with its offset, and the offset of the next element to come. -/
structure OffsetVector (α : Type) where
  entries : Array (Nat × α)
  nextOffset : Nat

namespace OffsetVector

variable {α : Type}

/-- No elements yet, with the first to come at the given offset. -/
def startingAt (offset : Nat) : OffsetVector α := ⟨#[], offset⟩

instance : Inhabited (OffsetVector α) := ⟨startingAt 0⟩

def size (v : OffsetVector α) : Nat := v.entries.size

def isEmpty (v : OffsetVector α) : Bool := v.entries.isEmpty

/-- The elements with their offsets, in order. -/
def toList (v : OffsetVector α) : List (Nat × α) := v.entries.toList

/-- Appends an element at `nextOffset`. -/
def push [HasWidth α] (v : OffsetVector α) (element : α) : OffsetVector α :=
  ⟨v.entries.push (v.nextOffset, element), v.nextOffset + width element⟩

/-- Given that the entries before `low` have offsets up to `offset` and those from `high` on do not, the
number of entries that have. -/
def countUpToLoop (entries : Array (Nat × α)) (offset low high : Nat) (h : high ≤ entries.size) : Nat :=
  if between : low < high then
    let middle := low + (high - low) / 2
    have inside : middle < entries.size := by omega
    if entries[middle].1 ≤ offset then
      countUpToLoop entries offset (middle + 1) high h
    else
      countUpToLoop entries offset low middle (Nat.le_of_lt inside)
  else
    low
termination_by high - low

/-- How many elements start at `offset` or before it. -/
def countUpTo (v : OffsetVector α) (offset : Nat) : Nat :=
  countUpToLoop v.entries offset 0 v.entries.size (Nat.le_refl _)

/-- Where an offset falls. -/
inductive Position where
  /-- It is the offset of the element at this position. -/
  | start (position : Nat)
  /-- No element starts there, but this many start before it, and more after it. -/
  | inside (position : Nat)
  /-- No element starts there or after it. -/
  | beyond
  deriving DecidableEq, Repr

def locate (v : OffsetVector α) (offset : Nat) : Position :=
  let count := v.countUpTo offset
  if (v.entries[count - 1]?.map Prod.fst) = some offset ∧ count ≠ 0 then .start (count - 1)
  else if count = v.size then .beyond
  else .inside count

/-- The element at an offset, with its position. -/
def get (v : OffsetVector α) (offset : Nat) : Except Position (Nat × α) :=
  match v.locate offset with
  | .start position =>
    match v.entries[position]? with
    | some (_, element) => .ok (position, element)
    | none => .error .beyond
  | elsewhere => .error elsewhere

def get? (v : OffsetVector α) (offset : Nat) : Option α :=
  (v.get offset).toOption.map Prod.snd

/-- Why an element cannot be put at an offset. -/
inductive SetFault where
  | misplaced (position : Position)
  /-- The element there has another width, and replacing it would move those after it. -/
  | incompatibleWidth (new old : Nat)
  deriving DecidableEq, Repr

def setFault? [HasWidth α] (v : OffsetVector α) (offset : Nat) (element : α) : Option SetFault :=
  match v.get offset with
  | .error position => some (.misplaced position)
  | .ok (_, old) =>
    if width old = width element then none else some (.incompatibleWidth (width element) (width old))

/-- Replaces the element at an offset, if nothing speaks against it. -/
def set [HasWidth α] (v : OffsetVector α) (offset : Nat) (element : α) : OffsetVector α :=
  if (v.setFault? offset element).isNone then
    { v with entries := v.entries.setIfInBounds (v.countUpTo offset - 1) (offset, element) }
  else
    v

/-- The elements that an iteration has not come to from either end, with their offsets, and the position of the
first of them. -/
structure Cursor (α : Type) where
  position : Nat
  remaining : List (Nat × α)

namespace Cursor

/-- The next element from the front, with its offset and its position. -/
def next? (c : Cursor α) : Option ((Nat × Nat × α) × Cursor α) :=
  match c.remaining with
  | [] => none
  | (offset, element) :: rest => some ((offset, c.position, element), ⟨c.position + 1, rest⟩)

/-- The next element from the back. -/
def nextBack? (c : Cursor α) : Option ((Nat × Nat × α) × Cursor α) :=
  match c.remaining.getLast? with
  | none => none
  | some (offset, element) =>
    let rest := c.remaining.dropLast
    some ((offset, c.position + rest.length, element), ⟨c.position, rest⟩)

theorem length_of_next? {c rest : Cursor α} {item : Nat × Nat × α} (h : c.next? = some (item, rest)) :
    rest.remaining.length < c.remaining.length := by
  rw [next?] at h
  split at h
  · cases h
  · next hremaining =>
    cases h
    rw [hremaining]
    exact Nat.lt_succ_self _

theorem length_of_nextBack? {c rest : Cursor α} {item : Nat × Nat × α} (h : c.nextBack? = some (item, rest)) :
    rest.remaining.length < c.remaining.length := by
  rw [nextBack?] at h
  split at h
  · cases h
  · next hlast =>
    cases h
    have hne : c.remaining ≠ [] := by
      intro hnil
      rw [hnil] at hlast
      cases hlast
    have := List.length_pos_iff.2 hne
    change c.remaining.dropLast.length < _
    rw [List.length_dropLast]
    omega

/-- All that is left, from the front. -/
def forwards (c : Cursor α) : List (Nat × Nat × α) :=
  match _found : c.next? with
  | none => []
  | some (item, rest) => item :: rest.forwards
termination_by c.remaining.length
decreasing_by exact length_of_next? ‹_›

/-- All that is left, from the back. -/
def backwards (c : Cursor α) : List (Nat × Nat × α) :=
  match _found : c.nextBack? with
  | none => []
  | some (item, rest) => item :: rest.backwards
termination_by c.remaining.length
decreasing_by exact length_of_nextBack? ‹_›

end Cursor

/-- The start of an iteration. -/
def iterate (v : OffsetVector α) : Cursor α := ⟨0, v.toList⟩

/-- Each element with its offset and its position. -/
def positions (v : OffsetVector α) : List (Nat × Nat × α) := v.iterate.forwards

/-- The elements with their offsets, each described. -/
def describe (element : α → String) (v : OffsetVector α) : String :=
  "[" ++ ", ".intercalate (v.toList.map fun (offset, x) => s!"#{offset} = " ++ element x) ++ "]"

/-! ## The view -/

@[simp]
theorem toList_startingAt (offset : Nat) : (startingAt offset : OffsetVector α).toList = [] := rfl

@[simp]
theorem toList_push [HasWidth α] (v : OffsetVector α) (element : α) :
    (v.push element).toList = v.toList ++ [(v.nextOffset, element)] := by
  simp [toList, push]

theorem set_of_setFault? [HasWidth α] {v : OffsetVector α} {offset : Nat} {element : α} {fault : SetFault}
    (h : v.setFault? offset element = some fault) : v.set offset element = v := by
  simp [set, h]

theorem countUpToLoop_eq (entries : Array (Nat × α)) (offset low high : Nat) (h : high ≤ entries.size)
    (low_le : low ≤ high)
    (sorted : entries.toList.Pairwise fun a b => a.1 ≤ b.1)
    (before : ∀ i (hi : i < entries.size), i < low → entries[i].1 ≤ offset)
    (after : ∀ i (hi : i < entries.size), high ≤ i → offset < entries[i].1) :
    countUpToLoop entries offset low high h = (entries.toList.filter (·.1 ≤ offset)).length := by
  have ordered : ∀ i j (hi : i < entries.size) (hj : j < entries.size), i ≤ j →
      entries[i].1 ≤ entries[j].1 := by
    intro i j hi hj hij
    rcases Nat.eq_or_lt_of_le hij with rfl | hlt
    · exact Nat.le_refl _
    · have := List.pairwise_iff_getElem.1 sorted i j (by simpa using hi) (by simpa using hj) hlt
      simpa using this
  fun_induction countUpToLoop entries offset low high h with
  | case1 low high h between middle inside upTo ih =>
    apply ih (by omega)
    · intro i hi hlow
      exact Nat.le_trans (ordered i middle hi inside (by omega)) upTo
    · exact after
  | case2 low high h between middle inside upTo ih =>
    apply ih (by omega)
    · exact before
    · intro i hi hmiddle
      exact Nat.lt_of_lt_of_le (Nat.lt_of_not_le upTo) (ordered middle i inside hi hmiddle)
  | case3 low high h between =>
    have same : low = high := by omega
    subst same
    have front : ∀ x ∈ entries.toList.take low, x.1 ≤ offset := by
      intro x hx
      obtain ⟨i, hi, rfl⟩ := List.mem_iff_getElem.1 hx
      simp only [List.length_take, Array.length_toList] at hi
      simpa using before i (by omega) (by omega)
    have back : ∀ x ∈ entries.toList.drop low, ¬ x.1 ≤ offset := by
      intro x hx
      obtain ⟨i, hi, rfl⟩ := List.mem_iff_getElem.1 hx
      simp only [List.length_drop, Array.length_toList] at hi
      simpa using after (low + i) (by omega) (by omega)
    rw [← List.take_append_drop low entries.toList, List.filter_append,
      List.filter_eq_self.2 (by simpa using front), List.filter_eq_nil_iff.2 (by simpa using back)]
    simp [h]

/-- In a vector whose offsets do not decrease, the search counts the elements up to an offset. -/
theorem countUpTo_eq (v : OffsetVector α) (offset : Nat)
    (sorted : v.toList.Pairwise fun a b => a.1 ≤ b.1) :
    v.countUpTo offset = (v.toList.filter (·.1 ≤ offset)).length := by
  apply countUpToLoop_eq v.entries offset 0 v.entries.size (Nat.le_refl _) (Nat.zero_le _) sorted
  · intro i hi h
    exact absurd h (Nat.not_lt_zero i)
  · intro i hi h
    exact absurd hi (Nat.not_lt.2 h)

end OffsetVector

end ClassSandbox
