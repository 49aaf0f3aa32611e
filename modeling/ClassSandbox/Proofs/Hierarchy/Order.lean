import ClassSandbox.Proofs.Hierarchy.Search

/-!
# The order of supertypes

Two classes that are supertypes of each other are `Tangled`. Above a class without such supertypes there is only one
way to list them: each direct supertype in order, followed by its own list, and every class only where it comes first
(`ClassSource.Lists`). A search gives that list whatever lists it already has (`found_and_collected`). The classes
that it is in the middle of do not matter, since none of them is a supertype of the classes that it still meets,
apart from a class that names itself.
-/

namespace ClassSandbox

open Relation

/-! ## The one list -/

namespace ClassSource

variable {source : ClassSource} {name other : String} {found : List String}

/-- Some other class is a supertype of this one and has it as a supertype. -/
def Tangled (source : ClassSource) (name : String) : Prop :=
  ∃ other, other ≠ name ∧ TransGen source.Step name other ∧ TransGen source.Step other name

/-- Neither the class nor any supertype of it is tangled. -/
def Untangled (source : ClassSource) (name : String) : Prop :=
  ∀ other, ReflTransGen source.Step name other → ¬ source.Tangled other

/-- The supertypes of a class in order. A class that names itself adds nothing there. -/
inductive Lists (source : ClassSource) : String → List String → Prop where
  | unavailable {name : String} {fault : SupertypeFault} (fails : source.directSupertypes name = .error fault) :
      Lists source name []
  | available {name : String} {direct : List String} (gives : source.directSupertypes name = .ok direct)
      (above : String → List String) (lists : ∀ up ∈ direct, up ≠ name → Lists source up (above up)) :
      Lists source name (direct.flatMap fun up => up :: if up = name then [] else above up).eraseDups

theorem Untangled.of_reached (h : source.Untangled name) (hreached : ReflTransGen source.Step name other) :
    source.Untangled other := fun _ hmore => h _ (hreached.trans hmore)

/-- Nothing but the class itself leads back to it. -/
theorem Untangled.eq_of_reached (h : source.Untangled name) (hup : TransGen source.Step name other)
    (hback : TransGen source.Step other name) : other = name := by
  by_contra hne
  exact h name .refl ⟨other, hne, hup, hback⟩

theorem Lists.unique {found' : List String} (h : source.Lists name found) (h' : source.Lists name found') :
    found = found' := by
  induction h generalizing found' with
  | unavailable fails =>
    cases h' with
    | unavailable _ => rfl
    | available gives _ _ => cases fails.symm.trans gives
  | @available name direct gives above _ ih =>
    cases h' with
    | unavailable fails => cases fails.symm.trans gives
    | available gives' above' lists' =>
      cases gives.symm.trans gives'
      have hsame : ∀ up ∈ direct, (up :: if up = name then [] else above up) =
          up :: if up = name then [] else above' up := by
        intro up hmem
        split
        · rfl
        · rename_i hne
          rw [ih up hmem hne (lists' up hmem hne)]
      rw [List.flatMap_congr hsame]

end ClassSource

namespace Hierarchy

variable {source : ClassSource} {way : List String} {cutAt : Option Nat} {name other : String}
  {known : Std.HashMap String (List String)} {direct seen supertypes : List String}
  {result : Lineage × Std.HashMap String (List String)}

/-- Each name where it comes first. -/
theorem distinct_eq (names : List String) : distinct names = names.eraseDups := by
  have hloop : ∀ (names kept : List String) (seen : Std.HashSet String),
      (∀ name, seen.contains name = true ↔ name ∈ kept) →
        distinctLoop seen kept names = kept.reverse ++ (names.filter fun name => !kept.contains name).eraseDups := by
    intro names
    induction names with
    | nil => simp [distinctLoop]
    | cons name names ih =>
      intro kept seen hsame
      unfold distinctLoop
      split
      · rename_i hseen
        have hkept := (hsame name).1 hseen
        rw [ih kept seen hsame, List.filter_cons_of_neg (by simpa using hkept)]
      · rename_i hnew
        have hkept : name ∉ kept := fun hmem => hnew ((hsame name).2 hmem)
        rw [ih (name :: kept) (seen.insert name) fun other => by
          rw [Std.HashSet.contains_insert, Bool.or_eq_true, beq_iff_eq, List.mem_cons, hsame, eq_comm]]
        rw [List.filter_cons_of_pos (by simpa using hkept), List.eraseDups_cons, List.filter_filter,
          List.reverse_cons, List.append_assoc, List.singleton_append]
        have hrest : ∀ other, (!(name :: kept).contains other) = (!other == name && !kept.contains other) := by
          intro other
          rw [List.contains_cons, Bool.not_or]
        simp only [hrest]
  rw [distinct, hloop names [] ∅ (by simp)]
  simp

theorem mem_or_mem_of_mem_lowest {a b : Option Nat} {place : Nat} (h : place ∈ lowest a b) :
    place ∈ a ∨ place ∈ b := by
  cases a <;> cases b
  case some.some first second =>
    obtain rfl : min first second = place := Option.some.inj h
    rcases Nat.le_total first second with hle | hle
    · exact .inl (congrArg some (Nat.min_eq_left hle).symm)
    · exact .inr (congrArg some (Nat.min_eq_right hle).symm)
  case none.some => exact .inr h
  all_goals exact .inl h

/-! ## What a search knows and where it is -/

/-- All lists that are kept for classes that are not tangled are in order. -/
def KnowsLists (source : ClassSource) (known : Std.HashMap String (List String)) : Prop :=
  ∀ name supertypes, known[name]? = some supertypes → source.Untangled name → source.Lists name supertypes

theorem knowsLists_empty (source : ClassSource) : KnowsLists source ∅ :=
  fun name supertypes h => by simp at h

theorem KnowsLists.keep (h : KnowsLists source known)
    (hlists : source.Untangled name → source.Lists name supertypes) :
    KnowsLists source (keep known name supertypes) := by
  intro other found hfound huntangled
  rw [Hierarchy.keep, Std.HashMap.getElem?_insertIfNew] at hfound
  split at hfound
  · rename_i hnew
    cases hfound
    obtain rfl := eq_of_beq hnew.1
    exact hlists huntangled
  · exact h other found hfound huntangled

/-- Each class leads to those that the search entered after it. -/
def Ascends (source : ClassSource) (way : List String) : Prop :=
  way.Pairwise fun later earlier => TransGen source.Step earlier later

theorem Ascends.cons_step {up : String} (h : Ascends source (name :: way)) (hstep : source.Step name up) :
    Ascends source (up :: name :: way) := by
  refine List.pairwise_cons.2 ⟨fun entered hmem => ?_, h⟩
  rcases List.mem_cons.1 hmem with rfl | hmem
  · exact .single hstep
  · exact ((List.pairwise_cons.1 h).1 entered hmem).tail hstep

/-- Nothing is kept for the classes that the search is in the middle of. -/
def Open (known : Std.HashMap String (List String)) (way : List String) : Prop :=
  ∀ entered ∈ way, known[entered]? = none

theorem Open.inherited (h : Open known way) (source : ClassSource) (name : String) :
    Open (inherited source way name known).2 way := fun entered hmem =>
  ((getElem?_of_entered source).1 way name known entered hmem).trans (h entered hmem)

/-- A class that is not tangled is only entered above itself if it names itself. -/
theorem not_mem_of_untangled {up : String} (huntangled : source.Untangled name)
    (hway : Ascends source (up :: name :: way)) (hne : up ≠ name) : up ∉ name :: way := by
  intro hmem
  obtain ⟨hup, hbelow⟩ := List.pairwise_cons.1 hway
  have hentered := (List.pairwise_cons.1 hbelow).1 up ((List.mem_cons.1 hmem).resolve_left hne)
  exact hne (huntangled.eq_of_reached (hup name List.mem_cons_self) hentered)

/-! ## What it finds -/

/-- After it met a class, the search knows lists in order, and has found that of the class if it is not tangled. -/
structure Found (source : ClassSource) (way : List String) (name : String)
    (result : Lineage × Std.HashMap String (List String)) : Prop where
  known : KnowsLists source result.2
  lists : source.Untangled name → name ∉ way → source.Lists name result.1.supertypes ∧ result.1.cutAt = none

/-- After it followed some names from the class that it entered last, and had seen others before, the search has the
lists of all of them one after the other, if that class is not tangled. It was only cut short by that class. -/
structure Collected (source : ClassSource) (way direct seen : List String) (cutAt : Option Nat)
    (result : Lineage × Std.HashMap String (List String)) : Prop where
  known : KnowsLists source result.2
  exists_lists : ∀ name ∈ way.head?, source.Untangled name →
    ∀ up ∈ direct, up ≠ name → ∃ supertypes, source.Lists up supertypes
  lists : ∀ name ∈ way.head?, source.Untangled name → ∀ above : String → List String,
    (∀ up ∈ direct, up ≠ name → source.Lists up (above up)) → result.1.supertypes =
      (seen.reverse ++ direct.flatMap fun up => up :: if up = name then [] else above up).eraseDups
  cutAt : ∀ name ∈ way.head?, source.Untangled name →
    ∀ place ∈ result.1.cutAt, place ∈ cutAt ∨ place = placeOn way name

theorem Collected.lists_of_direct (h : Collected source (name :: way) direct [] none result)
    (hdirect : source.directSupertypes name = .ok direct) (huntangled : source.Untangled name) :
    source.Lists name result.1.supertypes := by
  classical
  choose! above habove using h.exists_lists name rfl huntangled
  rw [h.lists name rfl huntangled above habove]
  exact .available hdirect above habove

theorem collected_nil (h : KnowsLists source known) :
    Collected source way [] seen cutAt (⟨distinct seen.reverse, cutAt⟩, known) where
  known := h
  exists_lists := fun _ _ _ _ hmem => (nomatch hmem)
  lists := fun _ _ _ _ _ => by rw [distinct_eq, List.flatMap_nil, List.append_nil]
  cutAt := fun _ _ _ _ hplace => .inl hplace

theorem Found.collected_cons {up : String} {rest : List String} {last : Lineage × Std.HashMap String (List String)}
    (h : Found source way up result) (hway : Ascends source (up :: way))
    (hself : up ∈ way → result.1 = ⟨[], some (placeOn way up)⟩)
    (hrest : Collected source way rest (result.1.supertypes.reverse ++ up :: seen) (lowest cutAt result.1.cutAt) last) :
    Collected source way (up :: rest) seen cutAt last := by
  -- The list of any class but the one entered last has been found, and no cut was met below it.
  have hup : ∀ name ∈ way.head?, source.Untangled name → up ≠ name →
      source.Lists up result.1.supertypes ∧ result.1.cutAt = none := by
    intro name hname huntangled hne
    obtain ⟨below, rfl⟩ := List.head?_eq_some_iff.1 hname
    have hreached := (List.pairwise_cons.1 hway).1 name List.mem_cons_self
    exact h.lists (huntangled.of_reached hreached.to_reflTransGen) (not_mem_of_untangled huntangled hway hne)
  have hagain : ∀ name ∈ way.head?, up = name → result.1 = ⟨[], some (placeOn way name)⟩ := by
    rintro name hname rfl
    exact hself (List.mem_of_head? hname)
  refine ⟨hrest.known, fun name hname huntangled other hmem hne => ?_, fun name hname huntangled above habove => ?_,
    fun name hname huntangled place hplace => ?_⟩
  · rcases List.mem_cons.1 hmem with rfl | hmem
    · exact ⟨_, (hup name hname huntangled hne).1⟩
    · exact hrest.exists_lists name hname huntangled other hmem hne
  · rw [hrest.lists name hname huntangled above fun other hmem => habove other (List.mem_cons_of_mem _ hmem)]
    by_cases heq : up = name
    · simp [hagain name hname heq, heq]
    · have hsame := (hup name hname huntangled heq).1.unique (habove up List.mem_cons_self heq)
      simp [hsame, heq]
  · rcases hrest.cutAt name hname huntangled place hplace with hmem | hsame
    · rcases mem_or_mem_of_mem_lowest hmem with hmem | hmem
      · exact .inl hmem
      · by_cases heq : up = name
        · rw [hagain name hname heq] at hmem
          exact .inr (Option.some.inj hmem).symm
        · rw [(hup name hname huntangled heq).2] at hmem
          cases hmem
    · exact .inr hsame

theorem placeOn_self (way : List String) (name : String) : placeOn (name :: way) name = way.length := by
  simp [placeOn]

/-- The two halves of the search, by induction along their calls. -/
theorem found_and_collected (source : ClassSource) :
    (∀ way name known, KnowsLists source known → Ascends source (name :: way) → Open known way →
        Found source way name (inherited source way name known)) ∧
      ∀ way direct seen cutAt known, KnowsLists source known → (∀ up ∈ direct, Ascends source (up :: way)) →
        Open known way → Collected source way direct seen cutAt (gather source way direct seen cutAt known) := by
  refine inherited.mutual_induct source _ _ ?known ?unavailable ?whole ?cut ?entered ?nil ?cons
  case known =>
    intro way name known supertypes hknown h _ _
    rw [inherited_of_known hknown]
    exact ⟨h, fun huntangled _ => ⟨h name supertypes hknown huntangled, rfl⟩⟩
  case unavailable =>
    intro way name known hnew hfresh fault hfault h _ _
    rw [inherited_of_unavailable hnew hfresh hfault]
    exact ⟨h, fun _ _ => ⟨.unavailable hfault, rfl⟩⟩
  case whole | cut =>
    intro way name known hnew hfresh direct hdirect _ found after hrun _ _ ih h hway hopen
    have hup : ∀ up ∈ direct, Ascends source (up :: name :: way) := fun up hmem =>
      hway.cons_step ((ClassSource.step_iff hdirect).2 hmem)
    have hcollected := ih h hup (List.forall_mem_cons.2 ⟨hnew, hopen⟩)
    rw [hrun] at hcollected
    obtain ⟨-, hinherited⟩ | ⟨hcut, hinherited⟩ := inherited_of_direct hnew hfresh hdirect hrun
    · rw [hinherited]
      exact ⟨hcollected.known.keep (hcollected.lists_of_direct hdirect), fun huntangled _ =>
        ⟨hcollected.lists_of_direct hdirect huntangled, rfl⟩⟩
    · rw [hinherited]
      refine ⟨hcollected.known, fun huntangled _ => absurd (fun place hplace => ?_) hcut⟩
      rcases hcollected.cutAt name rfl huntangled place hplace with hmem | rfl
      · cases hmem
      · exact Nat.le_of_eq (placeOn_self way name).symm
  case entered =>
    intro way name known hnew hentered h _ _
    rw [inherited_of_entered hnew hentered]
    exact ⟨h, fun _ hmem => absurd (by simpa using hmem) hentered⟩
  case nil =>
    intro way seen cutAt known h _ _
    rw [gather]
    exact collected_nil h
  case cons =>
    intro way seen cutAt known name rest found after hrun ihname ihrest h hway hopen
    rw [List.forall_mem_cons] at hway
    have hfound := ihname h hway.1 hopen
    have hafter := hopen.inherited source name
    have hself : name ∈ way → (inherited source way name known).1 = ⟨[], some (placeOn way name)⟩ := fun hmem => by
      rw [inherited_of_entered (hopen name hmem) (by simpa using hmem)]
    rw [hrun] at hfound hafter hself
    rw [gather, hrun]
    exact hfound.collected_cons hway.1 hself (ihrest hfound.known hway.2 hafter)

end Hierarchy

end ClassSandbox
