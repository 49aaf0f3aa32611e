import ClassSandbox.Proofs.Hierarchy.Queries

/-!
# Hierarchies without cycles

If no class that a class leads to can reach itself, the supertypes of the class are put together from those of its
direct supertypes: each direct supertype in order, followed by its own list, and every class only where it comes first
(`supertypes_inOrder`). It makes no difference what was asked before, neither for the class nor for those above it.

Such a hierarchy is not tangled anywhere, so there is only one list for each class (`ClassSource.Lists.unique`), and no
class names itself.
-/

namespace ClassSandbox

open Relation

namespace ClassSource

variable {source : ClassSource} {name other : String} {direct : List String}

/-- Neither the class nor any supertype of it can reach itself. -/
def Acyclic (source : ClassSource) (name : String) : Prop :=
  ∀ other, ReflTransGen source.Step name other → ¬ TransGen source.Step other other

theorem Acyclic.of_reached (h : source.Acyclic name) (hreached : ReflTransGen source.Step name other) :
    source.Acyclic other := fun _ hmore => h _ (hreached.trans hmore)

theorem Acyclic.untangled (h : source.Acyclic name) : source.Untangled name :=
  fun other hreached ⟨_, _, hup, hback⟩ => h other hreached (hup.trans hback)

theorem Acyclic.ne_of_step (h : source.Acyclic name) (hstep : source.Step name other) : other ≠ name := by
  rintro rfl
  exact h other .refl (.single hstep)

/-- Steps that go down in rank do not come back. -/
theorem acyclic_of_rank (rank : String → Nat) (h : ∀ name other, source.Step name other → rank other < rank name)
    (name : String) : source.Acyclic name := by
  have hdown : ∀ {lower upper}, TransGen source.Step lower upper → rank upper < rank lower := by
    intro lower upper hreached
    induction hreached with
    | single hstep => exact h _ _ hstep
    | tail _ hstep ih => exact Nat.lt_trans (h _ _ hstep) ih
  exact fun _ _ hcycle => Nat.lt_irrefl _ (hdown hcycle)

/-- Without cycles no direct supertype is left out. -/
theorem Acyclic.lists (h : source.Acyclic name) (hdirect : source.Declares name direct) {above : String → List String}
    (habove : ∀ up ∈ direct, source.Lists up (above up)) :
    source.Lists name (direct.flatMap fun up => up :: above up).eraseDups := by
  have hsame : ∀ up ∈ direct, (up :: if up = name then [] else above up) = up :: above up := fun up hmem => by
    rw [if_neg (h.ne_of_step ⟨direct, hdirect, hmem⟩)]
  rw [← List.flatMap_congr hsame]
  exact .available (directSupertypes_eq_ok_iff.2 hdirect) above fun up hmem _ => habove up hmem

end ClassSource

namespace Hierarchy

variable {source : ClassSource} {name : String} {direct : List String} {h : Hierarchy}

/-- The supertypes that a hierarchy gives for a class. There are none for one that is not available. -/
def listed (h : Hierarchy) (name : String) : List String :=
  match (h.supertypes name).1 with
  | .ok supertypes => supertypes
  | .error _ => []

/-- Whatever was asked, a hierarchy knows lists in order. -/
theorem known_afterQueries (source : ClassSource) (queries : List Query) :
    (afterQueries source queries).source = source ∧ KnowsClosures source (afterQueries source queries).known ∧
      KnowsLists source (afterQueries source queries).known := by
  obtain ⟨names, hcalls, -⟩ := exists_calls_of_queries (ofSource source) queries
  change afterQueries source queries = afterCalls source names at hcalls
  rw [hcalls]
  obtain ⟨hsource, hclosures⟩ := @knowsClosures_foldl (ofSource source) (knowsClosures_empty source) names
  exact ⟨hsource, hclosures, (known_afterCalls source names).1⟩

theorem lists_listed (hclosures : KnowsClosures h.source h.known) (hlists : KnowsLists h.source h.known)
    (huntangled : h.source.Untangled name) : h.source.Lists name (h.listed name) := by
  cases hdirect : h.source.directSupertypes name with
  | error fault =>
    rw [listed, supertypes_fst_of_unavailable hclosures hdirect]
    exact .unavailable hdirect
  | ok direct =>
    obtain ⟨found, hfound, -⟩ := exists_supertypes_of_direct hclosures hdirect
    rw [listed, hfound]
    exact (knowsLists_supertypes hlists name).2 found hfound huntangled

theorem lists_listed_afterQueries (queries : List Query) (h : source.Untangled name) :
    source.Lists name ((afterQueries source queries).listed name) := by
  obtain ⟨hsource, hclosures, hlists⟩ := known_afterQueries source queries
  have hlisted := @lists_listed name (afterQueries source queries)
  rw [hsource] at hlisted
  exact hlisted hclosures hlists h

theorem supertypes_afterQueries_of_declares (queries : List Query) (hdirect : source.Declares name direct) :
    ((afterQueries source queries).supertypes name).1 = .ok ((afterQueries source queries).listed name) := by
  obtain ⟨hsource, hclosures, -⟩ := known_afterQueries source queries
  have hdirect' : (afterQueries source queries).source.directSupertypes name = .ok direct := by
    rw [hsource, ClassSource.directSupertypes_eq_ok_iff]
    exact hdirect
  obtain ⟨found, hfound, -⟩ := exists_supertypes_of_direct (hsource.symm ▸ hclosures) hdirect'
  rw [listed, hfound]

/-- The supertypes of a class below which there is no cycle are its direct supertypes in order, each followed by what
any hierarchy of the same source lists for it, without repetitions. -/
theorem supertypes_inOrder (hdirect : source.Declares name direct) (hacyclic : source.Acyclic name)
    (queries : List Query) (others : String → List Query) :
    ((afterQueries source queries).supertypes name).1 =
      .ok (direct.flatMap fun up => up :: (afterQueries source (others up)).listed up).eraseDups := by
  rw [supertypes_afterQueries_of_declares queries hdirect]
  refine congrArg Except.ok ((lists_listed_afterQueries queries hacyclic.untangled).unique ?_)
  refine hacyclic.lists hdirect fun up hmem => lists_listed_afterQueries (others up) ?_
  exact (hacyclic.of_reached (.single ⟨direct, hdirect, hmem⟩)).untangled

/-! ## An example -/

section Example

/-- A class with the interfaces `W` and `Z`. -/
def sideBytes : Bytes :=
  [0xCA, 0xFE, 0xBA, 0xBE, 0, 0, 0, 52, 0, 7, 1, 0, 1, 0x58, 7, 0, 1, 1, 0, 1, 0x57, 7, 0, 3, 1, 0, 1, 0x5A, 7, 0, 5,
    0, 0x21, 0, 2, 0, 0, 0, 2, 0, 4, 0, 6, 0, 0, 0, 0, 0, 0]

/-- The class `D` has `W` as a supertype both itself and through `X`. There is no class `Z`. -/
def diamondSource : ClassSource := .ofList [("D", firstKnotBytes), ("X", sideBytes), ("W", plainBytes)]

theorem directSupertypes_diamondSource : diamondSource.directSupertypes "D" = .ok ["X", "W"] ∧
    diamondSource.directSupertypes "X" = .ok ["W", "Z"] ∧ diamondSource.directSupertypes "W" = .ok [] ∧
    diamondSource.directSupertypes "Z" = .error (.load (.noClass "Z")) := by
  refine ⟨?_, ?_, ?_, ?_⟩ <;> with_unfolding_all rfl

theorem acyclic_diamondSource (name : String) : diamondSource.Acyclic name := by
  obtain ⟨hfirst, hside, hplain, -⟩ := directSupertypes_diamondSource
  refine ClassSource.acyclic_of_rank (fun name => if name = "D" then 2 else if name = "X" then 1 else 0) ?_ name
  rintro lower upper ⟨direct, hdirect, hmem⟩
  rw [← ClassSource.directSupertypes_eq_ok_iff] at hdirect
  obtain ⟨bytes, hclass⟩ := ClassSource.mem_classes_of_directSupertypes hdirect
  have hlower : lower ∈ diamondSource.classes.map Prod.fst := List.mem_map_of_mem hclass
  simp only [diamondSource, ClassSource.ofList, List.map_cons, List.map_nil, List.mem_cons, List.not_mem_nil,
    or_false] at hlower
  rcases hlower with rfl | rfl | rfl
  · cases hfirst.symm.trans hdirect
    rcases List.mem_pair.1 hmem with rfl | rfl <;> decide
  · cases hside.symm.trans hdirect
    rcases List.mem_pair.1 hmem with rfl | rfl <;> decide
  · cases hplain.symm.trans hdirect
    cases hmem

/-- After a call for `X`, the class `W` is listed where `X` has it. -/
theorem supertypes_inOrder_diamond :
    diamondSource.Declares "D" ["X", "W"] ∧ diamondSource.Acyclic "D" ∧
      ((afterQueries diamondSource [.supertypes "X"]).supertypes "D").1 = .ok ["X", "W", "Z"] := by
  obtain ⟨hfirst, hside, hplain, hmissing⟩ := directSupertypes_diamondSource
  rw [ClassSource.directSupertypes_eq_ok_iff] at hfirst hside hplain
  have hlisted : ∀ {name supertypes}, ((afterQueries diamondSource []).supertypes name).1 = .ok supertypes →
      (afterQueries diamondSource []).listed name = supertypes := fun h => by rw [listed, h]
  have hW := hlisted (supertypes_inOrder hplain (acyclic_diamondSource "W") [] fun _ => [])
  have hZ : (afterQueries diamondSource []).listed "Z" = [] := by
    rw [listed, supertypes_fst_of_unavailable (knowsClosures_empty diamondSource) hmissing]
  have hX := hlisted (supertypes_inOrder hside (acyclic_diamondSource "X") [] fun _ => [])
  refine ⟨hfirst, acyclic_diamondSource "D", ?_⟩
  rw [supertypes_inOrder hfirst (acyclic_diamondSource "D") [.supertypes "X"] fun _ => []]
  simp only [List.flatMap_cons, List.flatMap_nil, hX, hW, hZ]
  decide

end Example

end Hierarchy

end ClassSandbox
