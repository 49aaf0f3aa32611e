import ClassSandbox.ConstantPool
import ClassSandbox.Proofs.OffsetVector.Cursor
import ClassSandbox.Proofs.OffsetVector.Packed

/-!
# Vectors as lists

A vector that starts somewhere and is changed by `Edit`s is a list of elements and nothing more. What an edit does to
the list is said without a search (`Edit.onList`, `setAt`), and the vector keeps up with it as long as no element is
empty (`Mirrors`). The list then determines all that the vector shows (`ShowsList`): where each element stands, what
an offset finds or misses, what can be put there, and what an iteration gives from either end.
-/

namespace ClassSandbox.OffsetVector

variable {α : Type} [HasWidth α] {first offset : Nat} {x old : α} {xs : List α} {v : OffsetVector α}

/-! ## Lists with offsets -/

/-- The offset of the element at a position of a list, if that of the first one is given. -/
def offsetOf (first : Nat) (xs : List α) (position : Nat) : Nat := first + totalWidth (xs.take position)

theorem offsetOf_cons_succ (x : α) (xs : List α) (k : Nat) :
    offsetOf first (x :: xs) (k + 1) = offsetOf (first + width x) xs k := by
  simp only [offsetOf, List.take_succ_cons, totalWidth_cons, Nat.add_assoc]

theorem le_offsetOf (first : Nat) (xs : List α) (k : Nat) : first ≤ offsetOf first xs k := Nat.le_add_right _ _

theorem place_eq (first : Nat) (xs : List α) :
    (place first xs).map Prod.fst = (List.range xs.length).map (offsetOf first xs) := by
  apply List.ext_getElem?
  intro k
  rw [List.getElem?_map, List.getElem?_map, getElem?_place, Option.map_map]
  by_cases hk : k < xs.length
  · simp [hk, offsetOf]
  · simp [hk]

/-- Puts an element at an offset of a list, if one of the same width stands there. -/
def setAt (offset : Nat) (x : α) (first : Nat) : List α → List α
  | [] => []
  | old :: rest =>
    if first = offset then (if width old = width x then x else old) :: rest
    else old :: setAt offset x (first + width old) rest

theorem setAt_of_getElem? (hwidths : ∀ x ∈ xs, 0 < width x) {k : Nat} (hk : xs[k]? = some old)
    (hsame : width old = width x) : setAt (offsetOf first xs k) x first xs = xs.set k x := by
  induction xs generalizing first k with
  | nil => cases hk
  | cons y xs ih =>
    rw [List.forall_mem_cons] at hwidths
    cases k with
    | zero =>
      cases hk
      simp [setAt, offsetOf, hsame]
    | succ k =>
      have hle := le_offsetOf (first + width y) xs k
      have hne : first ≠ offsetOf (first + width y) xs k := by omega
      rw [offsetOf_cons_succ, setAt, if_neg hne, ih hwidths.2 hk, List.set_cons_succ]

theorem setAt_eq_self (h : ∀ k old, xs[k]? = some old → offsetOf first xs k = offset → width old ≠ width x) :
    setAt offset x first xs = xs := by
  induction xs generalizing first with
  | nil => rfl
  | cons y xs ih =>
    rw [setAt]
    split
    · next hfirst => rw [if_neg (h 0 y rfl hfirst)]
    · rw [ih fun k old hk hoffset => h (k + 1) old hk ((offsetOf_cons_succ y xs k).trans hoffset)]

/-! ## What a vector shows -/

/-- All that a vector shows is what a list says, of which the first element has some offset. -/
structure ShowsList (first : Nat) (xs : List α) (v : OffsetVector α) : Prop where
  size : v.size = xs.length
  isEmpty : v.isEmpty = xs.isEmpty
  nextOffset : v.nextOffset = first + totalWidth xs
  /-- Each element comes with the offset at which those before it end, and with its position. -/
  positions (k : Nat) : v.positions[k]? = xs[k]?.map fun x => (offsetOf first xs k, k, x)
  backwards : v.iterate.backwards = v.positions.reverse
  /-- An iteration may go on from either end at any time. It comes to each element once, and is over at both ends
  when none is left. -/
  walk {front back : List (Nat × Nat × α)} {rest : Cursor α} : v.iterate.Walk front back rest →
    v.positions = front ++ rest.forwards ++ back.reverse ∧
      (rest.next? = none ↔ rest.forwards = []) ∧ (rest.nextBack? = none ↔ rest.forwards = [])
  found {offset k : Nat} {x : α} :
    v.get offset = .ok (k, x) ↔ xs[k]? = some x ∧ offsetOf first xs k = offset
  beyond {offset : Nat} : v.get offset = .error .beyond ↔ ∀ k < xs.length, offsetOf first xs k < offset
  /-- An offset at which no element stands comes with the number of those that start before it. -/
  inside {offset count : Nat} : v.get offset = .error (.inside count) ↔
    (∀ k < xs.length, offsetOf first xs k ≠ offset) ∧ (∃ k < xs.length, offset < offsetOf first xs k) ∧
      count = (List.range xs.length).countP (offsetOf first xs · < offset)
  not_start {offset k : Nat} : v.get offset ≠ .error (.start k)
  settable {offset : Nat} {x : α} : v.setFault? offset x = none ↔
    ∃ k old, xs[k]? = some old ∧ offsetOf first xs k = offset ∧ width old = width x
  incompatible {offset new old : Nat} {x : α} : v.setFault? offset x = some (.incompatibleWidth new old) ↔
    ∃ k y, xs[k]? = some y ∧ offsetOf first xs k = offset ∧ width y ≠ width x ∧ new = width x ∧ old = width y
  misplaced {offset : Nat} {x : α} {position : Position} :
    v.setFault? offset x = some (.misplaced position) ↔ v.get offset = .error position
  /-- One element of the list is another one, and all stands where it stood. -/
  set {k : Nat} {x old : α} : xs[k]? = some old → width old = width x →
    (v.set (offsetOf first xs k) x).toList = v.toList.set k (offsetOf first xs k, x) ∧
      (v.set (offsetOf first xs k) x).nextOffset = v.nextOffset
  unset {offset : Nat} {x : α} : v.setFault? offset x ≠ none → v.set offset x = v

/-- A vector keeps up with a list if it holds the elements of the list without gaps, and none of them is empty. -/
structure Mirrors (first : Nat) (xs : List α) (v : OffsetVector α) : Prop where
  packed : v.Packed first
  elements : v.elements = xs
  widths : ∀ x ∈ xs, 0 < width x

theorem Mirrors.ordered (h : Mirrors first xs v) : v.Ordered :=
  ordered_of_packed (h.elements ▸ h.widths) h.packed

theorem Mirrors.size_eq (h : Mirrors first xs v) : v.size = xs.length := by
  rw [← h.elements, OffsetVector.elements, List.length_map]
  rfl

theorem Mirrors.get_eq_ok_iff (h : Mirrors first xs v) {k : Nat} :
    v.get offset = .ok (k, x) ↔ xs[k]? = some x ∧ offsetOf first xs k = offset := by
  have htoList : v.toList[k]? = xs[k]?.map fun x => (offsetOf first xs k, x) := by
    rw [h.packed.toList, h.elements, getElem?_place]
    rfl
  rw [OffsetVector.get_eq_ok_iff h.ordered, ← Array.getElem?_toList]
  change v.toList[k]? = _ ↔ _
  rw [htoList, Option.map_eq_some_iff]
  constructor
  · rintro ⟨y, hy, heq⟩
    cases heq
    exact ⟨hy, rfl⟩
  · rintro ⟨hx, rfl⟩
    exact ⟨x, hx, rfl⟩

theorem Mirrors.get_of_found (h : Mirrors first xs v) {k : Nat} (hk : xs[k]? = some x) :
    v.get (offsetOf first xs k) = .ok (k, x) := h.get_eq_ok_iff.2 ⟨hk, rfl⟩

/-- An offset is found, or it is beyond all elements, or one starts behind it. -/
theorem Mirrors.lookup (h : Mirrors first xs v) (offset : Nat) :
    (∃ k x, xs[k]? = some x ∧ offsetOf first xs k = offset ∧ v.get offset = .ok (k, x)) ∨
      ((∀ k < xs.length, offsetOf first xs k < offset) ∧ v.get offset = .error .beyond) ∨
      ((∀ k < xs.length, offsetOf first xs k ≠ offset) ∧ (∃ k < xs.length, offset < offsetOf first xs k) ∧
        v.get offset = .error (.inside ((List.range xs.length).countP (offsetOf first xs · < offset)))) := by
  have hstarts : v.toList.map Prod.fst = (List.range xs.length).map (offsetOf first xs) := by
    rw [h.packed.toList, place_eq, h.elements]
  by_cases hfound : ∃ k < xs.length, offsetOf first xs k = offset
  · obtain ⟨k, hk, rfl⟩ := hfound
    have hx := List.getElem?_eq_getElem hk
    exact .inl ⟨k, xs[k], hx, rfl, h.get_of_found hx⟩
  · have hmiss : ∀ k < xs.length, offsetOf first xs k ≠ offset := fun k hk heq => hfound ⟨k, hk, heq⟩
    have hnone : offset ∉ v.toList.map Prod.fst := by simpa [hstarts] using hmiss
    have hget := get_of_missed h.ordered hnone
    by_cases hlater : ∃ k < xs.length, offset < offsetOf first xs k
    · have hnot : ¬ ∀ start ∈ v.toList.map Prod.fst, start < offset := by
        obtain ⟨k, hk, hlt⟩ := hlater
        intro hall
        rw [hstarts] at hall
        exact Nat.lt_asymm hlt (hall _ (List.mem_map_of_mem (List.mem_range.2 hk)))
      refine .inr (.inr ⟨hmiss, hlater, ?_⟩)
      rw [hget, if_neg hnot, hstarts, List.countP_map]
      rfl
    · have hall : ∀ k < xs.length, offsetOf first xs k < offset := fun k hk =>
        Nat.lt_of_le_of_ne (Nat.le_of_not_lt fun hlt => hlater ⟨k, hk, hlt⟩) (hmiss k hk)
      refine .inr (.inl ⟨hall, ?_⟩)
      rw [hget, if_pos (by simpa [hstarts] using hall)]

theorem Mirrors.beyond_iff (h : Mirrors first xs v) :
    v.get offset = .error .beyond ↔ ∀ k < xs.length, offsetOf first xs k < offset := by
  rcases h.lookup offset with ⟨k, x, hk, rfl, hget⟩ | ⟨hall, hget⟩ | ⟨-, ⟨k, hk, hlt⟩, hget⟩ <;> rw [hget]
  · have hlt := (List.getElem?_eq_some_iff.1 hk).1
    exact ⟨fun heq => (nomatch heq), fun hall => absurd (hall k hlt) (Nat.lt_irrefl _)⟩
  · exact ⟨fun _ => hall, fun _ => rfl⟩
  · exact ⟨fun heq => (nomatch heq), fun hall => absurd (hall k hk) (Nat.lt_asymm hlt)⟩

theorem Mirrors.inside_iff (h : Mirrors first xs v) {count : Nat} : v.get offset = .error (.inside count) ↔
    (∀ k < xs.length, offsetOf first xs k ≠ offset) ∧ (∃ k < xs.length, offset < offsetOf first xs k) ∧
      count = (List.range xs.length).countP (offsetOf first xs · < offset) := by
  rcases h.lookup offset with ⟨k, x, hk, rfl, hget⟩ | ⟨hall, hget⟩ | ⟨hmiss, hlater, hget⟩ <;> rw [hget]
  · have hlt := (List.getElem?_eq_some_iff.1 hk).1
    exact ⟨fun heq => (nomatch heq), fun hmissed => absurd rfl (hmissed.1 k hlt)⟩
  · refine ⟨fun heq => (nomatch heq), ?_⟩
    rintro ⟨-, ⟨k, hk, hlt⟩, -⟩
    exact absurd (hall k hk) (Nat.lt_asymm hlt)
  · constructor
    · intro heq
      cases heq
      exact ⟨hmiss, hlater, rfl⟩
    · rintro ⟨-, -, rfl⟩
      rfl

theorem Mirrors.get_ne_start (h : Mirrors first xs v) {k : Nat} : v.get offset ≠ .error (.start k) := by
  rcases h.lookup offset with ⟨k, x, hk, rfl, hget⟩ | ⟨hall, hget⟩ | ⟨hmiss, hlater, hget⟩ <;> rw [hget] <;>
    exact fun heq => nomatch heq

theorem Mirrors.positions_eq (h : Mirrors first xs v) (k : Nat) :
    v.positions[k]? = xs[k]?.map fun x => (offsetOf first xs k, k, x) := by
  rw [positions, Cursor.forwards_eq, Cursor.items, iterate, h.packed.toList, h.elements, List.getElem?_map,
    List.getElem?_zipIdx, getElem?_place, Option.map_map, Option.map_map]
  simp [offsetOf, Function.comp_def]

theorem setFault?_of_get {k : Nat} (h : v.get offset = .ok (k, old)) : v.setFault? offset x =
    if width old = width x then none else some (.incompatibleWidth (width x) (width old)) := by
  rw [setFault?, h]

theorem setFault?_of_missed {position : Position} (h : v.get offset = .error position) :
    v.setFault? offset x = some (.misplaced position) := by
  rw [setFault?, h]

theorem Mirrors.setFault?_eq_none_iff (h : Mirrors first xs v) : v.setFault? offset x = none ↔
    ∃ k old, xs[k]? = some old ∧ offsetOf first xs k = offset ∧ width old = width x := by
  constructor
  · intro hfault
    cases hget : v.get offset with
    | error position =>
      rw [setFault?_of_missed hget] at hfault
      cases hfault
    | ok found =>
      rw [setFault?_of_get hget] at hfault
      split at hfault
      · next hsame =>
        obtain ⟨hk, hoffset⟩ := h.get_eq_ok_iff.1 hget
        exact ⟨found.1, found.2, hk, hoffset, hsame⟩
      · cases hfault
  · rintro ⟨k, old, hk, rfl, hsame⟩
    rw [setFault?_of_get (h.get_of_found hk), if_pos hsame]

theorem Mirrors.incompatibleWidth_iff (h : Mirrors first xs v) {new old : Nat} :
    v.setFault? offset x = some (.incompatibleWidth new old) ↔
      ∃ k y, xs[k]? = some y ∧ offsetOf first xs k = offset ∧ width y ≠ width x ∧ new = width x ∧ old = width y := by
  constructor
  · intro hfault
    cases hget : v.get offset with
    | error position =>
      rw [setFault?_of_missed hget] at hfault
      cases hfault
    | ok found =>
      rw [setFault?_of_get hget] at hfault
      split at hfault
      · cases hfault
      · next hother =>
        cases hfault
        obtain ⟨hk, hoffset⟩ := h.get_eq_ok_iff.1 hget
        exact ⟨found.1, found.2, hk, hoffset, hother, rfl, rfl⟩
  · rintro ⟨k, y, hk, rfl, hother, rfl, rfl⟩
    rw [setFault?_of_get (h.get_of_found hk), if_neg hother]

theorem misplaced_iff {position : Position} :
    v.setFault? offset x = some (.misplaced position) ↔ v.get offset = .error position := by
  refine ⟨fun hfault => ?_, setFault?_of_missed⟩
  cases hget : v.get offset with
  | error other =>
    rw [setFault?_of_missed hget] at hfault
    cases hfault
    rfl
  | ok found =>
    rw [setFault?_of_get hget] at hfault
    split at hfault <;> cases hfault

theorem set_of_fault (h : v.setFault? offset x ≠ none) : v.set offset x = v := by
  obtain ⟨fault, hsome⟩ := Option.ne_none_iff_exists'.1 h
  exact set_of_setFault? hsome

theorem Mirrors.isEmpty_eq (h : Mirrors first xs v) : v.isEmpty = xs.isEmpty := by
  have hsize := h.size_eq
  rw [Bool.eq_iff_iff, isEmpty, Array.isEmpty_iff_size_eq_zero, List.isEmpty_iff_length_eq_zero, ← hsize]
  rfl

theorem Mirrors.showsList (h : Mirrors first xs v) : ShowsList first xs v where
  size := h.size_eq
  isEmpty := h.isEmpty_eq
  nextOffset := by rw [h.packed.nextOffset, h.elements]
  positions := h.positions_eq
  backwards := by rw [positions, Cursor.backwards_eq, Cursor.forwards_eq]
  walk hwalk := by
    rw [positions, Cursor.forwards_eq, Cursor.forwards_eq]
    exact ⟨hwalk.items_eq, Cursor.next?_eq_none_iff, Cursor.nextBack?_eq_none_iff⟩
  found := h.get_eq_ok_iff
  beyond := h.beyond_iff
  inside := h.inside_iff
  not_start := h.get_ne_start
  settable := h.setFault?_eq_none_iff
  incompatible := h.incompatibleWidth_iff
  misplaced := misplaced_iff
  set hk hsame := ⟨toList_set h.ordered (h.get_of_found hk) hsame, nextOffset_set⟩
  unset := set_of_fault

/-! ## Edits -/

/-- A change of a vector. -/
inductive Edit (α : Type) where
  | push (x : α)
  | set (offset : Nat) (x : α)

/-- Setting an element where it does not fit changes nothing. -/
def Edit.apply (v : OffsetVector α) : Edit α → OffsetVector α
  | push x => v.push x
  | set offset x => v.set offset x

/-- What an edit does to the elements, if the first of them has some offset. -/
def Edit.onList (first : Nat) (xs : List α) : Edit α → List α
  | push x => xs ++ [x]
  | set offset x => setAt offset x first xs

theorem mirrors_startingAt (first : Nat) : Mirrors first [] (startingAt first : OffsetVector α) :=
  ⟨packed_startingAt first, rfl, fun _ hmem => nomatch hmem⟩

theorem Mirrors.push (h : Mirrors first xs v) (hwidth : 0 < width x) : Mirrors first (xs ++ [x]) (v.push x) where
  packed := packed_push h.packed
  elements := by rw [elements_push, h.elements]
  widths := by simpa [or_imp, forall_and] using ⟨h.widths, hwidth⟩

theorem Mirrors.set_of_found (h : Mirrors first xs v) {k : Nat} (hk : xs[k]? = some old)
    (hsame : width old = width x) : Mirrors first (xs.set k x) (v.set (offsetOf first xs k) x) where
  packed := packed_set (h.elements ▸ h.widths) h.packed
  elements := by rw [elements_set h.ordered (h.get_of_found hk) hsame, h.elements]
  widths := by
    intro y hmem
    rcases List.mem_or_eq_of_mem_set hmem with hmem | rfl
    · exact h.widths y hmem
    · exact hsame ▸ h.widths old (List.mem_of_getElem? hk)

/-- The vector and the list refuse the same elements, and take the others at the same place. -/
theorem Mirrors.set (h : Mirrors first xs v) (offset : Nat) (x : α) :
    Mirrors first (setAt offset x first xs) (v.set offset x) := by
  by_cases hfits : ∃ k old, xs[k]? = some old ∧ offsetOf first xs k = offset ∧ width old = width x
  · obtain ⟨k, old, hk, rfl, hsame⟩ := hfits
    rw [setAt_of_getElem? h.widths hk hsame]
    exact h.set_of_found hk hsame
  · rw [set_of_fault (mt h.setFault?_eq_none_iff.1 hfits),
      setAt_eq_self fun k old hk hoffset hsame => hfits ⟨k, old, hk, hoffset, hsame⟩]
    exact h

theorem Mirrors.edits (h : Mirrors first xs v) {edits : List (Edit α)} (hwidths : ∀ x, .push x ∈ edits → 0 < width x) :
    Mirrors first (edits.foldl (Edit.onList first) xs) (edits.foldl Edit.apply v) := by
  induction edits generalizing xs v with
  | nil => exact h
  | cons edit edits ih =>
    have hnext : Mirrors first (edit.onList first xs) (edit.apply v) := by
      cases edit with
      | push x => exact h.push (hwidths x List.mem_cons_self)
      | set offset x => exact h.set offset x
    exact ih hnext fun x hmem => hwidths x (List.mem_cons_of_mem _ hmem)

/-- Whatever is pushed and set, the vector shows the list on which the same is done. -/
theorem edits_showList (first : Nat) (edits : List (Edit α)) (hwidths : ∀ x, .push x ∈ edits → 0 < width x) :
    ShowsList first (edits.foldl (Edit.onList first) []) (edits.foldl Edit.apply (startingAt first)) :=
  ((mirrors_startingAt first).edits hwidths).showsList

/-- A long between two integers. Then the first integer is replaced, and three edits do not fit: one for its width, one
inside the long and one behind the last element. -/
def wideEdits : List (Edit Constant) :=
  [.push (.integer 1), .push (.long 2), .push (.integer 3), .set 1 (.integer 7), .set 4 (.long 7), .set 3 (.integer 7),
    .set 9 (.integer 7)]

theorem edits_showList_wide :
    let v := wideEdits.foldl Edit.apply (startingAt 1)
    (∀ x, .push x ∈ wideEdits → 0 < width x) ∧ ShowsList 1 [.integer 7, .long 2, .integer 3] v ∧
      v.get 2 = .ok (1, .long 2) ∧ v.get 3 = .error (.inside 2) ∧ v.get 9 = .error .beyond := by
  have hwidths : ∀ x, .push x ∈ wideEdits → 0 < width x := fun x _ => x.width_pos
  have hshows := edits_showList 1 wideEdits hwidths
  have hlist : wideEdits.foldl (Edit.onList 1) [] = [.integer 7, .long 2, .integer 3] := by decide
  rw [hlist] at hshows
  exact ⟨hwidths, hshows, hshows.found.2 ⟨rfl, rfl⟩, hshows.inside.2 ⟨by decide, ⟨2, by decide, by decide⟩, by decide⟩,
    hshows.beyond.2 (by decide)⟩

end ClassSandbox.OffsetVector
