import Std.Data.HashMap
import Std.Data.HashSet
import ClassSandbox.ClassSource

/-!
# Hierarchies

`Hierarchy.supertypes` lists the supertypes of a class: for each direct supertype in order the supertype
itself and then its own supertypes, every class only where it comes first. A supertype that is not
available is listed and has no supertypes of its own.

Class files can claim that a class is its own supertype. The search keeps the classes that it is in the
middle of, and does not enter one of them again. What it then has for the classes above may lack
supertypes, so those lists are not kept. All other lists are, and a hierarchy carries them along.
-/

namespace ClassSandbox

structure Hierarchy where
  source : ClassSource
  /-- The supertypes of some classes. -/
  known : Std.HashMap String (List String)

/-- What a search has found. -/
structure Lineage where
  supertypes : List String
  /-- The lowest place on the way at which the search met a class that it was in the middle of. -/
  cutAt : Option Nat

/-- Each name where it comes first. Those in `kept` came before, newest first, and `seen` has the same. -/
def distinctLoop (seen : Std.HashSet String) (kept : List String) : List String → List String
  | [] => kept.reverse
  | name :: rest =>
    if seen.contains name then distinctLoop seen kept rest
    else distinctLoop (seen.insert name) (name :: kept) rest

/-- Each name where it comes first. -/
def distinct (names : List String) : List String := distinctLoop ∅ [] names

theorem mem_distinctLoop {seen : Std.HashSet String} {kept names : List String}
    (same : ∀ name, seen.contains name = true ↔ name ∈ kept) {name : String} :
    name ∈ distinctLoop seen kept names ↔ name ∈ kept ∨ name ∈ names := by
  induction names generalizing seen kept with
  | nil => simp [distinctLoop]
  | cons first rest ih =>
    unfold distinctLoop
    split
    · next known =>
      rw [ih same, List.mem_cons]
      constructor
      · rintro (h | h)
        · exact .inl h
        · exact .inr (.inr h)
      · rintro (h | rfl | h)
        · exact .inl h
        · exact .inl ((same _).1 known)
        · exact .inr h
    · rw [ih fun other => by
        simp only [Std.HashSet.contains_insert, Bool.or_eq_true, beq_iff_eq, List.mem_cons, same,
          eq_comm (a := first)]]
      simp only [List.mem_cons, or_left_comm, or_assoc]

theorem mem_distinct {names : List String} {name : String} : name ∈ distinct names ↔ name ∈ names := by
  unfold distinct
  rw [mem_distinctLoop (by simp)]
  simp

/-- The lower of two places. -/
def lowest (a b : Option Nat) : Option Nat :=
  match a, b with
  | some a, some b => some (min a b)
  | a, none => a
  | none, b => b

namespace ClassSource

/-- The classes that the search is not in the middle of. -/
def unentered (source : ClassSource) (way : List String) : Nat :=
  (source.classes.filter fun entry => !way.contains entry.1).length

theorem unentered_lt {source : ClassSource} {way : List String} {name : String} {direct : List String}
    (fresh : way.contains name = false) (h : source.directSupertypes name = .ok direct) :
    source.unentered (name :: way) < source.unentered way := by
  obtain ⟨bytes, hmem⟩ := mem_classes_of_directSupertypes h
  unfold unentered
  have split : (source.classes.filter fun entry => !(name :: way).contains entry.1) =
      (source.classes.filter fun entry => !way.contains entry.1).filter fun entry => entry.1 != name := by
    rw [List.filter_filter]
    congr 1
    funext entry
    simp only [List.contains_cons, Bool.not_or, bne]
  rw [split]
  refine List.length_filter_lt_length_iff_exists.2 ⟨(name, bytes), ?_, by simp⟩
  exact List.mem_filter.2 ⟨hmem, by rw [fresh]; rfl⟩

end ClassSource

namespace Hierarchy

def ofSource (source : ClassSource) : Hierarchy := ⟨source, ∅⟩

/-- Keeps the supertypes of a class. -/
def keep (known : Std.HashMap String (List String)) (name : String) (supertypes : List String) :
    Std.HashMap String (List String) :=
  known.insertIfNew name supertypes

mutual

/-- The supertypes of a class that is met on the way, which lists the classes that the search is in the
middle of, the nearest first. -/
def inherited (source : ClassSource) (way : List String) (name : String)
    (known : Std.HashMap String (List String)) : Lineage × Std.HashMap String (List String) :=
  match known[name]? with
  | some supertypes => (⟨supertypes, none⟩, known)
  | none =>
    if fresh : way.contains name = false then
      match h : source.directSupertypes name with
      | .error _ => (⟨[], none⟩, known)
      | .ok direct =>
        have := ClassSource.unentered_lt fresh h
        let (found, known) := gather source (name :: way) direct [] none known
        let complete := match found.cutAt with
          | none => true
          | some place => way.length ≤ place
        if complete then (⟨found.supertypes, none⟩, keep known name found.supertypes) else (found, known)
    else
      (⟨[], some (way.length - 1 - way.idxOf name)⟩, known)
termination_by (source.unentered way, 0)

/-- Some supertypes, each with its own, after those in `seen`, newest first. -/
def gather (source : ClassSource) (way : List String) (direct seen : List String) (cutAt : Option Nat)
    (known : Std.HashMap String (List String)) : Lineage × Std.HashMap String (List String) :=
  match direct with
  | [] => (⟨distinct seen.reverse, cutAt⟩, known)
  | name :: rest =>
    let (found, known) := inherited source way name known
    gather source way rest (found.supertypes.reverse ++ name :: seen) (lowest cutAt found.cutAt) known
termination_by (source.unentered way, direct.length)

end

/-- The supertypes of a class. They are not known only if the class itself is not available. -/
def supertypes (h : Hierarchy) (name : String) : Except SupertypeFault (List String) × Hierarchy :=
  match h.known[name]? with
  | some supertypes => (.ok supertypes, h)
  | none =>
    match h.source.directSupertypes name with
    | .error fault => (.error fault, h)
    | .ok direct =>
      let (found, known) := gather h.source [name] direct [] none h.known
      (.ok found.supertypes, { h with known := keep known name found.supertypes })

end Hierarchy

end ClassSandbox
