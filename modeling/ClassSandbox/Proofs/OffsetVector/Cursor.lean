import ClassSandbox.OffsetVector

/-!
# Iterating from both ends

What a `Cursor` has left is a list of `items`. The next element from the front is the first of them, and the next
one from the back is the last. So an iteration that goes on from either end, in any order, gives each element once
and at its place (`Walk.items_eq`).
-/

namespace ClassSandbox.OffsetVector.Cursor

variable {α : Type} {c rest : Cursor α} {item : Nat × Nat × α}

/-- The elements that are left, each with its offset and its position. -/
def items (c : Cursor α) : List (Nat × Nat × α) :=
  (c.remaining.zipIdx c.position).map fun entry => (entry.1.1, entry.2, entry.1.2)

theorem next?_eq_none_iff : c.next? = none ↔ c.items = [] := by
  rcases c with ⟨position, _ | ⟨entry, remaining⟩⟩ <;> simp [next?, items]

theorem nextBack?_eq_none_iff : c.nextBack? = none ↔ c.items = [] := by
  rcases c with ⟨position, remaining⟩
  rcases List.eq_nil_or_concat remaining with rfl | ⟨front, last, rfl⟩ <;> simp [nextBack?, items]

theorem items_of_next? (h : c.next? = some (item, rest)) : c.items = item :: rest.items := by
  rcases c with ⟨position, _ | ⟨entry, remaining⟩⟩
  · cases h
  · cases h
    rfl

theorem items_of_nextBack? (h : c.nextBack? = some (item, rest)) : c.items = rest.items ++ [item] := by
  rcases c with ⟨position, remaining⟩
  rcases List.eq_nil_or_concat remaining with rfl | ⟨front, last, rfl⟩
  · cases h
  · rw [List.concat_eq_append] at h ⊢
    simp only [nextBack?, List.getLast?_concat, List.dropLast_concat, Option.some.injEq, Prod.mk.injEq] at h
    obtain ⟨rfl, rfl⟩ := h
    simp [items, List.zipIdx_append]

theorem forwards_eq (c : Cursor α) : c.forwards = c.items := by
  fun_induction forwards c with
  | case1 c h => exact (next?_eq_none_iff.1 h).symm
  | case2 c item rest h ih => rw [items_of_next? h, ih]

theorem backwards_eq (c : Cursor α) : c.backwards = c.items.reverse := by
  fun_induction backwards c with
  | case1 c h => rw [nextBack?_eq_none_iff.1 h, List.reverse_nil]
  | case2 c item rest h ih => rw [items_of_nextBack? h, ih, List.reverse_concat]

/-- Some calls lead from a cursor to another one. They give these elements from the front and those from the back, in
the order of the calls. -/
inductive Walk (c : Cursor α) : List (Nat × Nat × α) → List (Nat × Nat × α) → Cursor α → Prop
  | start : Walk c [] [] c
  | front {front back : List (Nat × Nat × α)} {before after : Cursor α} {item : Nat × Nat × α} :
    Walk c front back before → before.next? = some (item, after) → Walk c (front ++ [item]) back after
  | back {front back : List (Nat × Nat × α)} {before after : Cursor α} {item : Nat × Nat × α} :
    Walk c front back before → before.nextBack? = some (item, after) → Walk c front (back ++ [item]) after

/-- What the calls gave stands around what is left. -/
theorem Walk.items_eq {front back : List (Nat × Nat × α)} (h : Walk c front back rest) :
    c.items = front ++ rest.items ++ back.reverse := by
  induction h with
  | start => simp
  | front _ hnext ih => simp [ih, items_of_next? hnext]
  | back _ hnext ih => simp [ih, items_of_nextBack? hnext]

end ClassSandbox.OffsetVector.Cursor
