import ClassSandbox.Proofs.Hierarchy.Order

/-!
# What earlier searches change

Two searches from the same class find the same if they begin with the same lists for the classes that they can meet
below which something is tangled (`matched_of_alike`). All other classes have one list only, and what is kept for them
makes no difference. A search keeps lists only for classes that it reaches, so earlier calls that reached nothing
tangled which a class leads to make no difference for that class (`Alike.supertypes_eq`, `known_afterCalls`).
-/

namespace ClassSandbox

open Relation

namespace Hierarchy

variable {source : ClassSource} {root name : String} {way direct : List String}
  {known other : Std.HashMap String (List String)} {first : Lineage × Std.HashMap String (List String)}

/-! ## Where lists are kept -/

theorem getElem?_keep_of_ne {key : String} (hne : key ≠ name) (supertypes : List String) :
    (keep known name supertypes)[key]? = known[key]? := by
  rw [keep, Std.HashMap.getElem?_insertIfNew, if_neg]
  exact fun h => hne (eq_of_beq h.1).symm

/-- A search keeps lists only for classes that it reaches. -/
theorem getElem?_of_not_reached (source : ClassSource) :
    (∀ way name known, ∀ key, ¬ ReflTransGen source.Step name key →
        (inherited source way name known).2[key]? = known[key]?) ∧
      ∀ way direct seen cutAt known, ∀ key, (∀ up ∈ direct, ¬ ReflTransGen source.Step up key) →
        (gather source way direct seen cutAt known).2[key]? = known[key]? := by
  refine inherited.mutual_induct source _ _ ?known ?unavailable ?whole ?cut ?entered ?nil ?cons
  case known =>
    intro way name known supertypes hknown key _
    rw [inherited_of_known hknown]
  case unavailable =>
    intro way name known hnew hfresh fault hfault key _
    rw [inherited_of_unavailable hnew hfresh hfault]
  case whole | cut =>
    intro way name known hnew hfresh direct hdirect _ found after hrun _ _ ih key hkey
    have hafter := ih key fun up hmem hreached =>
      hkey (.head ((ClassSource.step_iff hdirect).2 hmem) hreached)
    rw [hrun] at hafter
    obtain ⟨-, hinherited⟩ | ⟨-, hinherited⟩ := inherited_of_direct hnew hfresh hdirect hrun
    · have hne : key ≠ name := fun heq => hkey (heq ▸ .refl)
      rw [hinherited, getElem?_keep_of_ne hne, hafter]
    · rw [hinherited, hafter]
  case entered =>
    intro way name known hnew hentered key _
    rw [inherited_of_entered hnew hentered]
  case nil =>
    intro way seen cutAt known key _
    rw [gather]
  case cons =>
    intro way seen cutAt known name rest found after hrun ihname ihrest key hkey
    rw [List.forall_mem_cons] at hkey
    have hfirst := ihname key hkey.1
    rw [hrun] at hfirst
    rw [gather, hrun]
    exact (ihrest key hkey.2).trans hfirst

/-! ## Two searches -/

/-- Two searches that begin with some class know lists in order, and the same ones for the classes that they can meet
below which something is tangled. -/
structure Alike (source : ClassSource) (root : String) (known other : Std.HashMap String (List String)) : Prop where
  left : KnowsLists source known
  right : KnowsLists source other
  same : ∀ name, ReflTransGen source.Step root name → ¬ source.Untangled name → known[name]? = other[name]?

/-- They have found the same. -/
structure Matched (source : ClassSource) (root : String)
    (first second : Lineage × Std.HashMap String (List String)) : Prop where
  lineage : first.1 = second.1
  alike : Alike source root first.2 second.2

theorem Alike.keep (h : Alike source root known other) {supertypes : List String}
    (htangled : ¬ source.Untangled name) :
    Alike source root (keep known name supertypes) (keep other name supertypes) where
  left := h.left.keep fun huntangled => absurd huntangled htangled
  right := h.right.keep fun huntangled => absurd huntangled htangled
  same key hreached hkey := by
    have hsame := h.same key hreached hkey
    by_cases hne : key = name
    · subst hne
      simp only [Hierarchy.keep, Std.HashMap.getElem?_insertIfNew, Std.HashMap.mem_iff_isSome_getElem?, hsame]
    · rw [getElem?_keep_of_ne hne, getElem?_keep_of_ne hne, hsame]

/-- Above a class that is not tangled both find the one list that there is. -/
theorem Alike.matched_of_untangled (h : Alike source root known other) (huntangled : source.Untangled name)
    (hway : Ascends source (name :: way)) (hopen : Open known way) (hopen' : Open other way) :
    Matched source root (inherited source way name known) (inherited source way name other) where
  lineage := by
    by_cases hmem : name ∈ way
    · have hentered : ¬ way.contains name = false := by simpa using hmem
      rw [inherited_of_entered (hopen name hmem) hentered, inherited_of_entered (hopen' name hmem) hentered]
    · obtain ⟨hlists, hwhole⟩ :=
        ((found_and_collected source).1 way name known h.left hway hopen).lists huntangled hmem
      obtain ⟨hlists', hwhole'⟩ :=
        ((found_and_collected source).1 way name other h.right hway hopen').lists huntangled hmem
      have hsame := hlists.unique hlists'
      cases hfirst : (inherited source way name known).1
      cases hsecond : (inherited source way name other).1
      simp_all
  alike := {
    left := ((found_and_collected source).1 way name known h.left hway hopen).known
    right := ((found_and_collected source).1 way name other h.right hway hopen').known
    same := fun key hreached hkey => by
      have hnot : ¬ ReflTransGen source.Step name key := fun hmet => hkey (huntangled.of_reached hmet)
      rw [(getElem?_of_not_reached source).1 way name known key hnot,
        (getElem?_of_not_reached source).1 way name other key hnot, h.same key hreached hkey] }

/-- The two halves of the search, side by side with what they do with other lists. -/
theorem matched_of_alike (source : ClassSource) (root : String) :
    (∀ way name known, ∀ other, Alike source root known other → ReflTransGen source.Step root name →
        ¬ source.Untangled name → Ascends source (name :: way) → Open known way → Open other way →
        Matched source root (inherited source way name known) (inherited source way name other)) ∧
      ∀ way direct seen cutAt known, ∀ other, Alike source root known other →
        (∀ up ∈ direct, ReflTransGen source.Step root up ∧ Ascends source (up :: way)) →
        Open known way → Open other way →
        Matched source root (gather source way direct seen cutAt known)
          (gather source way direct seen cutAt other) := by
  refine inherited.mutual_induct source _ _ ?known ?unavailable ?whole ?cut ?entered ?nil ?cons
  case known =>
    intro way name known supertypes hknown other h hreached htangled _ _ _
    have hother := (h.same name hreached htangled).symm.trans hknown
    rw [inherited_of_known hknown, inherited_of_known hother]
    exact ⟨rfl, h⟩
  case unavailable =>
    intro way name known hnew hfresh fault hfault other h hreached htangled _ _ _
    have hother := (h.same name hreached htangled).symm.trans hnew
    rw [inherited_of_unavailable hnew hfresh hfault, inherited_of_unavailable hother hfresh hfault]
    exact ⟨rfl, h⟩
  case whole | cut =>
    intro way name known hnew hfresh direct hdirect _ found after hrun _ _ ih other h hreached htangled hway hopen
      hopen'
    have hother := (h.same name hreached htangled).symm.trans hnew
    have hup : ∀ up ∈ direct, ReflTransGen source.Step root up ∧ Ascends source (up :: name :: way) :=
      fun up hmem =>
        have hstep := (ClassSource.step_iff hdirect).2 hmem
        ⟨hreached.tail hstep, hway.cons_step hstep⟩
    have hmatched := ih other h hup (List.forall_mem_cons.2 ⟨hnew, hopen⟩) (List.forall_mem_cons.2 ⟨hother, hopen'⟩)
    obtain ⟨hwhole, hfirst⟩ | ⟨hcut, hfirst⟩ := inherited_of_direct hnew hfresh hdirect rfl <;>
      obtain ⟨hwhole', hsecond⟩ | ⟨hcut', hsecond⟩ := inherited_of_direct hother hfresh hdirect rfl
    · rw [hfirst, hsecond, hmatched.lineage]
      exact ⟨rfl, hmatched.alike.keep htangled⟩
    · exact absurd (hmatched.lineage ▸ hwhole) hcut'
    · exact absurd (hmatched.lineage ▸ hwhole') hcut
    · rw [hfirst, hsecond]
      exact hmatched
  case entered =>
    intro way name known hnew hentered other h hreached htangled _ _ _
    have hother := (h.same name hreached htangled).symm.trans hnew
    rw [inherited_of_entered hnew hentered, inherited_of_entered hother hentered]
    exact ⟨rfl, h⟩
  case nil =>
    intro way seen cutAt known other h _ _ _
    rw [gather, gather]
    exact ⟨rfl, h⟩
  case cons =>
    intro way seen cutAt known name rest found after hrun ihname ihrest other h hdirect hopen hopen'
    rw [List.forall_mem_cons] at hdirect
    have hmatched : Matched source root (inherited source way name known) (inherited source way name other) := by
      by_cases huntangled : source.Untangled name
      · exact h.matched_of_untangled huntangled hdirect.1.2 hopen hopen'
      · exact ihname other h hdirect.1.1 huntangled hdirect.1.2 hopen hopen'
    have hafter := hopen.inherited source name
    have hafter' := hopen'.inherited source name
    rw [hrun] at hmatched hafter
    have hsecond : inherited source way name other = (found, (inherited source way name other).2) :=
      Prod.ext hmatched.lineage.symm rfl
    rw [gather, gather, hrun, hsecond]
    exact ihrest _ hmatched.alike hdirect.2 hafter hafter'

/-! ## Calls for supertypes -/

variable {h h' : Hierarchy} {supertypes : List String}

theorem supertypes_of_known (hknown : h.known[name]? = some supertypes) :
    h.supertypes name = (.ok supertypes, h) := by
  rw [Hierarchy.supertypes, hknown]

theorem supertypes_of_unavailable {fault : SupertypeFault} (hnew : h.known[name]? = none)
    (hfault : h.source.directSupertypes name = .error fault) : h.supertypes name = (.error fault, h) := by
  simp only [Hierarchy.supertypes, hnew, hfault]

theorem supertypes_of_direct (hnew : h.known[name]? = none)
    (hdirect : h.source.directSupertypes name = .ok direct)
    (hrun : gather h.source [name] direct [] none h.known = first) :
    h.supertypes name =
      (.ok first.1.supertypes, { h with known := Hierarchy.keep first.2 name first.1.supertypes }) := by
  simp only [Hierarchy.supertypes, hnew, hdirect, hrun]

theorem ascends_of_direct (hdirect : source.directSupertypes name = .ok direct) :
    ∀ up ∈ direct, Ascends source [up, name] := fun _ hmem =>
  Ascends.cons_step (List.pairwise_singleton _ name) ((ClassSource.step_iff hdirect).2 hmem)

theorem open_singleton (hnew : known[name]? = none) : Open known [name] := List.forall_mem_singleton.2 hnew

/-- What a call keeps and gives is in order. -/
theorem knowsLists_supertypes (hknown : KnowsLists h.source h.known) (name : String) :
    KnowsLists h.source (h.supertypes name).2.known ∧
      ∀ supertypes, (h.supertypes name).1 = .ok supertypes → h.source.Untangled name →
        h.source.Lists name supertypes := by
  cases hkept : h.known[name]? with
  | some found =>
    rw [supertypes_of_known hkept]
    exact ⟨hknown, fun supertypes heq huntangled => Except.ok.inj heq ▸ hknown name found hkept huntangled⟩
  | none =>
    cases hdirect : h.source.directSupertypes name with
    | error fault =>
      rw [supertypes_of_unavailable hkept hdirect]
      exact ⟨hknown, fun _ heq => (nomatch heq)⟩
    | ok direct =>
      have hcollected := (found_and_collected h.source).2 [name] direct [] none h.known hknown
        (ascends_of_direct hdirect) (open_singleton hkept)
      rw [supertypes_of_direct hkept hdirect rfl]
      exact ⟨hcollected.known.keep (hcollected.lists_of_direct hdirect), fun supertypes heq huntangled =>
        Except.ok.inj heq ▸ hcollected.lists_of_direct hdirect huntangled⟩

/-- A call keeps lists only for classes that it reaches. -/
theorem getElem?_supertypes_of_not_reached {key : String} (hkey : ¬ ReflTransGen h.source.Step name key) :
    (h.supertypes name).2.known[key]? = h.known[key]? := by
  cases hkept : h.known[name]? with
  | some found => rw [supertypes_of_known hkept]
  | none =>
    cases hdirect : h.source.directSupertypes name with
    | error fault => rw [supertypes_of_unavailable hkept hdirect]
    | ok direct =>
      have hne : key ≠ name := fun heq => hkey (heq ▸ .refl)
      rw [supertypes_of_direct hkept hdirect rfl, getElem?_keep_of_ne hne]
      exact (getElem?_of_not_reached h.source).2 [name] direct [] none h.known key fun up hmem hreached =>
        hkey (.head ((ClassSource.step_iff hdirect).2 hmem) hreached)

theorem supertypes_fst_of_unavailable {fault : SupertypeFault} (hknown : KnowsClosures h.source h.known)
    (hfault : h.source.directSupertypes name = .error fault) : (h.supertypes name).1 = .error fault := by
  cases hkept : h.known[name]? with
  | some found => exact absurd (hknown name found hkept).1 (ClassSource.not_available hfault)
  | none => rw [supertypes_of_unavailable hkept hfault]

theorem exists_supertypes_of_direct (hknown : KnowsClosures h.source h.known)
    (hdirect : h.source.directSupertypes name = .ok direct) :
    ∃ supertypes, (h.supertypes name).1 = .ok supertypes ∧ h.source.IsClosure name supertypes := by
  have hanswered := answered_supertypes hknown name
  cases hresult : (h.supertypes name).1 with
  | error fault =>
    exact absurd ⟨direct, ClassSource.directSupertypes_eq_ok_iff.1 hdirect⟩ (hanswered.fails_iff.1 ⟨fault, hresult⟩)
  | ok supertypes => exact ⟨supertypes, rfl, hanswered.closure supertypes hresult⟩

/-- Hierarchies of the same classes that know the same about the tangled ones give a class the same supertypes. -/
theorem Alike.supertypes_eq (halike : Alike h.source name h.known h'.known) (hsource : h'.source = h.source)
    (hknown : KnowsClosures h.source h.known) (hknown' : KnowsClosures h'.source h'.known) :
    (h.supertypes name).1 = (h'.supertypes name).1 := by
  cases hdirect : h.source.directSupertypes name with
  | error fault =>
    rw [supertypes_fst_of_unavailable hknown hdirect, supertypes_fst_of_unavailable hknown' (hsource ▸ hdirect)]
  | ok direct =>
    have hdirect' : h'.source.directSupertypes name = .ok direct := hsource ▸ hdirect
    by_cases huntangled : h.source.Untangled name
    · obtain ⟨found, hfound, -⟩ := exists_supertypes_of_direct hknown hdirect
      obtain ⟨found', hfound', -⟩ := exists_supertypes_of_direct hknown' hdirect'
      have hlists := (knowsLists_supertypes halike.left name).2 found hfound huntangled
      have hlists' := (knowsLists_supertypes (hsource ▸ halike.right) name).2 found' hfound' (hsource ▸ huntangled)
      rw [hfound, hfound', hlists.unique (hsource ▸ hlists')]
    · have hsame := halike.same name .refl huntangled
      cases hkept : h.known[name]? with
      | some found => rw [supertypes_of_known hkept, supertypes_of_known (hsame ▸ hkept)]
      | none =>
        have hkept' := hsame.symm.trans hkept
        have hmatched := (matched_of_alike h.source name).2 [name] direct [] none h.known h'.known halike
          (fun up hmem => ⟨.single ((ClassSource.step_iff hdirect).2 hmem), ascends_of_direct hdirect up hmem⟩)
          (open_singleton hkept) (open_singleton hkept')
        rw [supertypes_of_direct hkept hdirect rfl, supertypes_of_direct hkept' hdirect' rfl, hsource,
          hmatched.lineage]

theorem known_foldl (h : Hierarchy) (names : List String) (hknown : KnowsClosures h.source h.known)
    (hlists : KnowsLists h.source h.known) :
    KnowsLists h.source (names.foldl (fun h name => (h.supertypes name).2) h).known ∧
      ∀ key, (∀ name ∈ names, ¬ ReflTransGen h.source.Step name key) →
        (names.foldl (fun h name => (h.supertypes name).2) h).known[key]? = h.known[key]? := by
  induction names generalizing h with
  | nil => exact ⟨hlists, fun _ _ => rfl⟩
  | cons name names ih =>
    have hanswered := answered_supertypes hknown name
    have hsource := hanswered.sameSource
    have hrest := ih (h.supertypes name).2 (hsource.symm ▸ hanswered.known)
      (hsource.symm ▸ (knowsLists_supertypes hlists name).1)
    rw [hsource] at hrest
    refine ⟨hrest.1, fun key hkey => ?_⟩
    rw [List.forall_mem_cons] at hkey
    exact (hrest.2 key hkey.2).trans (getElem?_supertypes_of_not_reached hkey.1)

/-- Calls leave a hierarchy with lists in order, for classes that they reached. -/
theorem known_afterCalls (source : ClassSource) (names : List String) :
    KnowsLists source (afterCalls source names).known ∧
      ∀ key, (∀ name ∈ names, ¬ ReflTransGen source.Step name key) → (afterCalls source names).known[key]? = none := by
  obtain ⟨hlists, hkept⟩ := known_foldl (ofSource source) names (knowsClosures_empty source) (knowsLists_empty source)
  exact ⟨hlists, fun key hkey => (hkept key hkey).trans Std.HashMap.getElem?_empty⟩

end Hierarchy

end ClassSandbox
