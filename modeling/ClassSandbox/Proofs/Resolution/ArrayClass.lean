import ClassSandbox.Resolver

/-!
# The classes inside array classes

`objectArray?` takes the name of an array class apart, and `objectArray` puts it together
(`objectArray?_eq_some_iff`). `elementClass` takes array after array away, until what is left is no array
of classes: a class name, or an array of a base type.
-/

namespace ClassSandbox

theorem objectClass?_eq_some_iff {text : List Char} {inner : String} :
    objectClass? text = some inner ↔ text = 'L' :: inner.toList ++ [';'] := by
  unfold objectClass?
  constructor
  · intro h
    split at h
    · rename_i rest
      split at h
      · rename_i hlast
        cases h
        have hne : rest ≠ [] := by
          rintro rfl
          simp at hlast
        have hend := List.dropLast_concat_getLast hne
        rw [List.getLast?_eq_some_getLast hne, Option.some.injEq] at hlast
        rw [hlast] at hend
        simp [hend]
      · cases h
    · cases h
  · rintro rfl
    simp

/-- An array class is its dimensions, which may be none, around a class. -/
theorem objectArray?_eq_some_iff {name inner : String} {dimensions : Nat} :
    objectArray? name = some (dimensions, inner) ↔ name = objectArray dimensions inner := by
  simp only [objectArray?, Option.map_eq_some_iff, Prod.mk.injEq, objectClass?_eq_some_iff]
  constructor
  · rintro ⟨_, hclass, rfl, rfl⟩
    have hsame : ∀ c ∈ name.toList.takeWhile (· == '['), c = '[' := fun c hc => by
      simpa using List.all_eq_true.1 List.all_takeWhile c hc
    have hparts := List.takeWhile_append_dropWhile (p := (· == '[')) (l := name.toList)
    rw [hclass, List.eq_replicate_of_mem hsame] at hparts
    rw [← String.toList_inj, objectArray, String.toList_ofList, ← hparts]
    simp
  · rintro rfl
    refine ⟨inner, ?_, ?_, rfl⟩ <;> simp [objectArray]

theorem objectArray_inj {dimensions dimensions' : Nat} {inner inner' : String} :
    objectArray dimensions inner = objectArray dimensions' inner' ↔ dimensions = dimensions' ∧ inner = inner' := by
  refine ⟨fun h => ?_, fun ⟨hdimensions, hinner⟩ => by rw [hdimensions, hinner]⟩
  have := objectArray?_eq_some_iff.2 h
  rw [objectArray?_eq_some_iff.2 rfl] at this
  simpa using this

theorem head?_objectArray_succ (dimensions : Nat) (inner : String) :
    (objectArray (dimensions + 1) inner).toList.head? = some '[' := by
  simp [objectArray, List.replicate_succ]

/-- A name that starts like an array has at least one dimension around its class. -/
theorem exists_succ_of_objectArray? {name inner : String} {dimensions : Nat}
    (hbracket : name.toList.head? = some '[') (h : objectArray? name = some (dimensions, inner)) :
    ∃ more, dimensions = more + 1 := by
  rw [objectArray?_eq_some_iff] at h
  cases dimensions with
  | zero => simp [h, objectArray] at hbracket
  | succ more => exact ⟨more, rfl⟩

/-- What is left of a name after array after array of classes is taken away from around it. -/
def elementClass (name : String) : String :=
  match h : objectArray? name with
  | some (_ + 1, inner) =>
    have := length_of_objectArray? h
    elementClass inner
  | _ => name
termination_by name.length

theorem elementClass_objectArray (dimensions : Nat) (inner : String) :
    elementClass (objectArray (dimensions + 1) inner) = elementClass inner := by
  rw [elementClass]
  split
  · rename_i h
    rw [objectArray?_eq_some_iff.2 rfl] at h
    cases h
    rfl
  · rename_i h
    exact absurd (objectArray?_eq_some_iff.2 rfl) (h _ _)

theorem elementClass_of_forall_ne {name : String}
    (h : ∀ dimensions inner, name ≠ objectArray (dimensions + 1) inner) : elementClass name = name := by
  rw [elementClass]
  split
  · rename_i harray
    exact absurd (objectArray?_eq_some_iff.1 harray) (h _ _)
  · rfl

/-- Nothing is taken away from a name that does not start like an array. -/
theorem elementClass_of_head?_ne {name : String} (h : name.toList.head? ≠ some '[') :
    elementClass name = name :=
  elementClass_of_forall_ne fun dimensions inner heq => h (heq ▸ head?_objectArray_succ dimensions inner)

end ClassSandbox
