import Mathlib.Logic.Relation
import ClassSandbox.Hierarchy
import ClassSandbox.Proofs.Outcome

/-!
# Closures of hierarchies

The supertypes of a class are the classes that are reached from it by one or more steps to a direct supertype
(`ClassSource.IsClosure`).

A search for them does not enter a class that it is in the middle of, so what it has found for a class above may
lack something. Each class that it has met is `Covered`: what it names as supertypes has been found as well, or the
search is in the middle of it and was cut short at its place or further down. A class below which there was no cut
lacks nothing (`Followed.isClosure`).
-/

namespace ClassSandbox

open Relation

theorem ClassFile.directSupertypes_eq_ok_iff {file : ClassFile} {direct : List String} :
    file.directSupertypes = .ok direct ↔ ∃ interfaces superName, file.interfaceNames = .ok interfaces ∧
      file.superName = .ok superName ∧ direct = interfaces ++ superName.toList := by
  simp only [ClassFile.directSupertypes, except_bind_eq_ok_iff]
  constructor
  · rintro ⟨interfaces, hinterfaces, superName, hsuper, h⟩
    cases h
    exact ⟨interfaces, superName, hinterfaces, hsuper, rfl⟩
  · rintro ⟨interfaces, superName, hinterfaces, hsuper, rfl⟩
    exact ⟨interfaces, hinterfaces, superName, hsuper, rfl⟩

namespace ClassSource

variable {source : ClassSource} {name other : String} {direct found : List String}

/-- The class is available and names these direct supertypes: its bytes load and can be read, and the constants of
its interfaces and of its superclass give names. -/
def Declares (source : ClassSource) (name : String) (direct : List String) : Prop :=
  ∃ bytes file interfaces superName, source.load name = .ok bytes ∧ ClassFile.parse bytes = .ok file ∧
    file.interfaceNames = .ok interfaces ∧ file.superName = .ok superName ∧
    direct = interfaces ++ superName.toList

def Available (source : ClassSource) (name : String) : Prop := ∃ direct, source.Declares name direct

/-- One step up. A class that is not available has none. -/
def Step (source : ClassSource) (name other : String) : Prop :=
  ∃ direct, source.Declares name direct ∧ other ∈ direct

/-- The classes that are reached from a class by one or more steps, each once. -/
structure IsClosure (source : ClassSource) (name : String) (supertypes : List String) : Prop where
  nodup : supertypes.Nodup
  mem_iff : ∀ other, other ∈ supertypes ↔ TransGen source.Step name other

theorem directSupertypes_eq_ok_iff : source.directSupertypes name = .ok direct ↔ source.Declares name direct := by
  unfold directSupertypes
  constructor
  · intro h
    split at h
    · cases h
    · rename_i bytes hload
      split at h
      · cases h
      · rename_i hread
        cases h
        obtain ⟨file, hparse, hdirect⟩ := except_bind_eq_ok_iff.1 hread
        obtain ⟨interfaces, superName, hinterfaces, hsuper, rfl⟩ := ClassFile.directSupertypes_eq_ok_iff.1 hdirect
        exact ⟨bytes, file, interfaces, superName, hload, hparse, hinterfaces, hsuper, rfl⟩
  · rintro ⟨bytes, file, interfaces, superName, hload, hparse, hinterfaces, hsuper, rfl⟩
    have hread : ClassFile.parse bytes >>= ClassFile.directSupertypes = .ok (interfaces ++ superName.toList) :=
      except_bind_eq_ok_iff.2 ⟨file, hparse,
        ClassFile.directSupertypes_eq_ok_iff.2 ⟨interfaces, superName, hinterfaces, hsuper, rfl⟩⟩
    simp only [hload, hread]

theorem step_iff (h : source.directSupertypes name = .ok direct) : source.Step name other ↔ other ∈ direct := by
  constructor
  · rintro ⟨found, hfound, hmem⟩
    rw [directSupertypes_eq_ok_iff.2 hfound] at h
    cases h
    exact hmem
  · exact fun hmem => ⟨direct, directSupertypes_eq_ok_iff.1 h, hmem⟩

theorem not_available {fault : SupertypeFault} (h : source.directSupertypes name = .error fault) :
    ¬ source.Available name := by
  rintro ⟨direct, hdirect⟩
  rw [directSupertypes_eq_ok_iff.2 hdirect] at h
  cases h

theorem not_step {fault : SupertypeFault} (h : source.directSupertypes name = .error fault) :
    ¬ source.Step name other := fun ⟨direct, hdirect, _⟩ => not_available h ⟨direct, hdirect⟩

/-- A closure is closed under steps, and the class itself steps into it. -/
theorem IsClosure.mem_of_step (h : source.IsClosure name found) (hmem : other ∈ name :: found) {up : String}
    (hstep : source.Step other up) : up ∈ found := by
  rw [h.mem_iff]
  rcases List.mem_cons.1 hmem with rfl | hmem
  · exact .single hstep
  · exact .tail ((h.mem_iff other).1 hmem) hstep

end ClassSource

/-! ## What a search has covered -/

namespace Hierarchy

variable {source : ClassSource} {way found : List String} {cutAt : Option Nat} {name other : String}

/-- The place of a class that the search is in the middle of, with zero for the one that it began with. -/
def placeOn (way : List String) (name : String) : Nat := way.length - 1 - way.idxOf name

/-- All that a class names as supertypes has been found, or the search was cut short by that class itself or
further down. -/
def Covered (source : ClassSource) (way found : List String) (cutAt : Option Nat) (name : String) : Prop :=
  (∀ up, source.Step name up → up ∈ found) ∨ (name ∈ way ∧ ∃ place ∈ cutAt, place ≤ placeOn way name)

theorem Covered.mono {more : List String} {lower : Option Nat} (h : Covered source way found cutAt name)
    (hfound : found ⊆ more) (hlower : ∀ place ∈ cutAt, ∃ low ∈ lower, low ≤ place) :
    Covered source way more lower name := by
  rcases h with h | ⟨hmem, place, hplace, hle⟩
  · exact .inl fun up hstep => hfound (h up hstep)
  · obtain ⟨low, hlow, hlow_le⟩ := hlower place hplace
    exact .inr ⟨hmem, low, hlow, Nat.le_trans hlow_le hle⟩

theorem exists_mem_lowest_left {a b : Option Nat} : ∀ place ∈ a, ∃ low ∈ lowest a b, low ≤ place := by
  rintro place rfl
  cases b with
  | none => exact ⟨place, rfl, Nat.le_refl _⟩
  | some other => exact ⟨min place other, rfl, Nat.min_le_left _ _⟩

theorem exists_mem_lowest_right {a b : Option Nat} : ∀ place ∈ b, ∃ low ∈ lowest a b, low ≤ place := by
  rintro place rfl
  cases a with
  | none => exact ⟨place, rfl, Nat.le_refl _⟩
  | some other => exact ⟨min other place, rfl, Nat.min_le_right _ _⟩

theorem placeOn_cons (hne : other ≠ name) : placeOn (name :: way) other = placeOn way other := by
  rw [placeOn, placeOn, List.idxOf_cons_ne _ hne.symm, List.length_cons]
  omega

theorem placeOn_lt (hmem : other ∈ way) : placeOn way other < way.length := by
  have := List.length_pos_of_mem hmem
  unfold placeOn
  omega

/-- What a search covered from inside of a class, it covered from outside. -/
theorem Covered.leave (h : Covered source (name :: way) found cutAt other) (hne : other ≠ name) :
    Covered source way found cutAt other := by
  refine h.imp_right fun ⟨hmem, place, hplace, hle⟩ => ?_
  rw [placeOn_cons hne] at hle
  exact ⟨(List.mem_cons.1 hmem).resolve_left hne, place, hplace, hle⟩

/-- A search that was not cut below some class has found all that the others name as supertypes. -/
theorem Covered.mem_of_step (h : Covered source (name :: way) found cutAt other) (hne : other ≠ name)
    (hcuts : ∀ place ∈ cutAt, way.length ≤ place) {up : String} (hstep : source.Step other up) : up ∈ found := by
  rcases h.leave hne with h | ⟨hmem, place, hplace, hle⟩
  · exact h up hstep
  · exact absurd (Nat.le_trans (hcuts place hplace) hle) (Nat.not_le.2 (placeOn_lt hmem))

/-- The search has followed what a class names as supertypes. -/
structure Followed (source : ClassSource) (way : List String) (name : String) (found : List String)
    (cutAt : Option Nat) : Prop where
  nodup : found.Nodup
  step : ∀ up, source.Step name up → up ∈ found
  covered : ∀ other ∈ found, Covered source (name :: way) found cutAt other
  reached : ∀ other ∈ found, TransGen source.Step name other

theorem Followed.isClosure (h : Followed source way name found cutAt)
    (hcuts : ∀ place ∈ cutAt, way.length ≤ place) : source.IsClosure name found := by
  refine ⟨h.nodup, fun other => ⟨h.reached other, fun hreached => ?_⟩⟩
  -- Whatever is reached has been found, step by step: the places further down the way are not cut.
  induction hreached with
  | single hstep => exact h.step _ hstep
  | @tail other up _ hstep hmem =>
    by_cases hne : other = name
    · exact h.step up (hne ▸ hstep)
    · exact (h.covered other hmem).mem_of_step hne hcuts hstep

theorem Followed.leave (h : Followed source way name found cutAt) :
    ∀ other ∈ name :: found, Covered source way found cutAt other := by
  intro other hmem
  by_cases hne : other = name
  · exact .inl (hne ▸ h.step)
  · exact (h.covered other ((List.mem_cons.1 hmem).resolve_left hne)).leave hne

end Hierarchy

end ClassSandbox
