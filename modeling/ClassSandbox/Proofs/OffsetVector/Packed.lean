import ClassSandbox.Proofs.OffsetVector

/-!
# Vectors without gaps

`place` puts elements one after another, each where the one before it ends. A vector is `Packed` when it is its
elements in this way. It stays so under `push` and `set` (`packed_push`, `packed_set`), and then nothing but its
elements counts (`eq_of_packed`).
-/

namespace ClassSandbox.OffsetVector

variable {α : Type} {v w : OffsetVector α} {first offset : Nat} {x : α}

/-- The elements in order. -/
def elements (v : OffsetVector α) : List α := v.toList.map Prod.snd

@[simp]
theorem elements_startingAt (first : Nat) : (startingAt first : OffsetVector α).elements = [] := rfl

variable [HasWidth α]

@[simp]
theorem elements_push : (v.push x).elements = v.elements ++ [x] := by
  simp [elements]

/-! ## Placing -/

def totalWidth : List α → Nat
  | [] => 0
  | x :: xs => width x + totalWidth xs

@[simp]
theorem totalWidth_nil : totalWidth ([] : List α) = 0 := rfl

@[simp]
theorem totalWidth_cons (xs : List α) : totalWidth (x :: xs) = width x + totalWidth xs := rfl

@[simp]
theorem totalWidth_append (xs ys : List α) : totalWidth (xs ++ ys) = totalWidth xs + totalWidth ys := by
  induction xs with
  | nil => simp
  | cons x xs ih => simp [ih, Nat.add_assoc]

/-- Elements one after another, from an offset on. -/
def place (offset : Nat) : List α → List (Nat × α)
  | [] => []
  | x :: xs => (offset, x) :: place (offset + width x) xs

theorem place_append (offset : Nat) (xs ys : List α) :
    place offset (xs ++ ys) = place offset xs ++ place (offset + totalWidth xs) ys := by
  induction xs generalizing offset with
  | nil => simp [place]
  | cons x xs ih => simp [place, ih, Nat.add_assoc]

/-- Each element starts where those before it end. -/
theorem getElem?_place (offset : Nat) (xs : List α) (k : Nat) :
    (place offset xs)[k]? = xs[k]?.map fun x => (offset + totalWidth (xs.take k), x) := by
  induction xs generalizing offset k with
  | nil => simp [place]
  | cons x xs ih =>
    cases k with
    | zero => simp [place]
    | succ k => simp [place, ih, Nat.add_assoc]

theorem totalWidth_take_succ {xs : List α} {k : Nat} (h : xs[k]? = some x) :
    totalWidth (xs.take (k + 1)) = totalWidth (xs.take k) + width x := by
  rw [List.take_add_one, h, totalWidth_append]
  rfl

theorem totalWidth_take_le {i k : Nat} (h : i ≤ k) (xs : List α) :
    totalWidth (xs.take i) ≤ totalWidth (xs.take k) := by
  obtain ⟨more, rfl⟩ := Nat.exists_eq_add_of_le h
  rw [List.take_add, totalWidth_append]
  exact Nat.le_add_right _ _

theorem le_of_mem_place {xs : List α} {entry : Nat × α} (hmem : entry ∈ place offset xs) :
    offset ≤ entry.1 ∧ entry.1 + width entry.2 ≤ offset + totalWidth xs := by
  induction xs generalizing offset with
  | nil => cases hmem
  | cons x xs ih =>
    rw [totalWidth_cons]
    rcases List.mem_cons.1 hmem with rfl | hmem
    · exact ⟨Nat.le_refl _, Nat.add_le_add_left (Nat.le_add_right _ _) _⟩
    · have := ih hmem
      omega

theorem pairwise_place {xs : List α} (hwidth : ∀ x ∈ xs, 0 < width x) (offset : Nat) :
    (place offset xs).Pairwise fun a b => a.1 < b.1 := by
  induction xs generalizing offset with
  | nil => exact .nil
  | cons x xs ih =>
    rw [List.forall_mem_cons] at hwidth
    refine .cons (fun entry hmem => ?_) (ih hwidth.2 _)
    have := (le_of_mem_place hmem).1
    exact Nat.lt_of_lt_of_le (Nat.lt_add_of_pos_right hwidth.1) this

/-- An element of the same width takes the place of another. -/
theorem place_set {xs : List α} {i found : Nat} {old : α} (h : (place offset xs)[i]? = some (found, old))
    (hwidth : width old = width x) :
    place offset (xs.set i x) = (place offset xs).set i (found, x) ∧ totalWidth (xs.set i x) = totalWidth xs := by
  induction xs generalizing offset i with
  | nil => cases h
  | cons y xs ih =>
    cases i with
    | zero =>
      cases h
      simp [place, hwidth]
    | succ i =>
      obtain ⟨hplace, htotal⟩ := ih h
      simp [place, hplace, htotal]

/-! ## Packed vectors -/

/-- The first element has this offset, and each other one starts where the one before it ends. -/
structure Packed (first : Nat) (v : OffsetVector α) : Prop where
  toList : v.toList = place first v.elements
  nextOffset : v.nextOffset = first + totalWidth v.elements

theorem packed_startingAt (first : Nat) : (startingAt first : OffsetVector α).Packed first := ⟨rfl, rfl⟩

theorem packed_push (h : v.Packed first) : (v.push x).Packed first where
  toList := by
    rw [toList_push, elements_push, place_append, h.toList, h.nextOffset]
    rfl
  nextOffset := by
    rw [elements_push, totalWidth_append, ← Nat.add_assoc, ← h.nextOffset]
    rfl

theorem ordered_of_packed (hwidth : ∀ x ∈ v.elements, 0 < width x) (h : v.Packed first) : v.Ordered where
  increasing := by
    rw [h.toList]
    exact pairwise_place hwidth _
  below := by
    intro entry hmem
    have hpos := hwidth entry.2 (List.mem_map_of_mem hmem)
    rw [h.toList] at hmem
    rw [h.nextOffset]
    exact Nat.lt_of_lt_of_le (Nat.lt_add_of_pos_right hpos) (le_of_mem_place hmem).2

/-- An element takes the place of one of the same width, and no other changes. -/
theorem toList_set (h : v.Ordered) {k : Nat} {old : α} (hget : v.get offset = .ok (k, old))
    (hsame : width old = width x) : (v.set offset x).toList = v.toList.set k (offset, x) := by
  have hfault : v.setFault? offset x = none := by
    rw [setFault?, hget]
    exact if_pos hsame
  have hcount := countUpTo_of_getElem? h ((get_eq_ok_iff h).1 hget)
  rw [set, hfault, hcount]
  exact Array.toList_setIfInBounds

theorem elements_set (h : v.Ordered) {k : Nat} {old : α} (hget : v.get offset = .ok (k, old))
    (hsame : width old = width x) : (v.set offset x).elements = v.elements.set k x := by
  rw [elements, toList_set h hget hsame, List.map_set, elements]

theorem packed_set (hwidth : ∀ x ∈ v.elements, 0 < width x) (h : v.Packed first) : (v.set offset x).Packed first := by
  cases hfault : v.setFault? offset x with
  | some fault =>
    rw [set_of_setFault? hfault]
    exact h
  | none =>
    have hordered := ordered_of_packed hwidth h
    obtain ⟨k, old, hentry, hsame, -⟩ := exists_of_setFault?_eq_none hordered hfault
    have hget := (get_eq_ok_iff hordered).2 hentry
    have hat : v.toList[k]? = some (offset, old) := by rw [toList, Array.getElem?_toList, hentry]
    rw [h.toList] at hat
    obtain ⟨hplace, htotal⟩ := place_set hat hsame
    constructor
    · rw [toList_set hordered hget hsame, elements_set hordered hget hsame, hplace, ← h.toList]
    · rw [nextOffset_set, elements_set hordered hget hsame, htotal, h.nextOffset]

/-- Packed vectors with the same elements are the same. -/
theorem eq_of_packed (hv : v.Packed first) (hw : w.Packed first) (h : v.elements = w.elements) : v = w := by
  have hentries : v.entries = w.entries := by
    rw [← Array.toList_inj]
    exact hv.toList.trans ((congrArg (place first) h).trans hw.toList.symm)
  have hnext : v.nextOffset = w.nextOffset := by rw [hv.nextOffset, hw.nextOffset, h]
  rcases v with ⟨entries, nextOffset⟩
  rcases w with ⟨entries', nextOffset'⟩
  cases hentries
  cases hnext
  rfl

theorem elements_foldl_push (v : OffsetVector α) (xs : List α) : (xs.foldl push v).elements = v.elements ++ xs := by
  induction xs generalizing v with
  | nil => exact (List.append_nil _).symm
  | cons x xs ih => rw [List.foldl_cons, ih, elements_push, List.append_assoc, List.singleton_append]

theorem packed_foldl_push (h : v.Packed first) (xs : List α) : (xs.foldl push v).Packed first := by
  induction xs generalizing v with
  | nil => exact h
  | cons x xs ih => exact ih (packed_push h)

/-- Pushing the elements of a packed vector one by one builds it again. -/
theorem foldl_push_elements (h : v.Packed first) : v.elements.foldl push (startingAt first) = v :=
  eq_of_packed (packed_foldl_push (packed_startingAt first) v.elements) h (elements_foldl_push _ _)

end ClassSandbox.OffsetVector
