import Mathlib.Data.List.Nodup
import ClassSandbox.Proofs.Hierarchy.Closure

/-!
# Hierarchies list closures

Whatever was asked before, `Hierarchy.supertypes` lists the classes that are reached from a class, each once, or
it fails because that class is not available (`supertypes_closure`). The two halves of the search call each other,
so they are described together: what `inherited` gives is `Met`, and what `gather` gives is `Gathered`
(`met_and_gathered`). Only lists that lack nothing are kept.
-/

namespace ClassSandbox

open Relation

namespace Hierarchy

variable {source : ClassSource} {way : List String} {cutAt : Option Nat} {name : String}
  {known : Std.HashMap String (List String)} {direct seen supertypes : List String}
  {result : Lineage × Std.HashMap String (List String)}

/-- All lists that are kept are whole. -/
def KnowsClosures (source : ClassSource) (known : Std.HashMap String (List String)) : Prop :=
  ∀ name supertypes, known[name]? = some supertypes → source.Available name ∧ source.IsClosure name supertypes

theorem knowsClosures_empty (source : ClassSource) : KnowsClosures source ∅ :=
  fun name supertypes h => by simp at h

theorem KnowsClosures.keep (h : KnowsClosures source known) (havailable : source.Available name)
    (hclosure : source.IsClosure name supertypes) : KnowsClosures source (keep known name supertypes) := by
  intro other found hfound
  rw [Hierarchy.keep, Std.HashMap.getElem?_insertIfNew] at hfound
  split at hfound
  · rename_i hnew
    cases hfound
    exact eq_of_beq hnew.1 ▸ ⟨havailable, hclosure⟩
  · exact h other found hfound

/-- What the search has after it met a class. -/
structure Met (source : ClassSource) (way : List String) (name : String)
    (result : Lineage × Std.HashMap String (List String)) : Prop where
  known : KnowsClosures source result.2
  covered : ∀ other ∈ name :: result.1.supertypes,
    Covered source way result.1.supertypes result.1.cutAt other
  reached : ∀ other ∈ result.1.supertypes, TransGen source.Step name other

/-- What the search has after it followed some names and had seen others before. -/
structure Gathered (source : ClassSource) (way direct seen : List String)
    (result : Lineage × Std.HashMap String (List String)) : Prop where
  known : KnowsClosures source result.2
  nodup : result.1.supertypes.Nodup
  covered : ∀ other ∈ result.1.supertypes, Covered source way result.1.supertypes result.1.cutAt other
  subset : direct ++ seen ⊆ result.1.supertypes
  reached : ∀ other ∈ result.1.supertypes, other ∈ seen ∨ ∃ first ∈ direct, ReflTransGen source.Step first other

theorem nodup_distinctLoop {seen : Std.HashSet String} {kept names : List String}
    (hsame : ∀ name, seen.contains name = true ↔ name ∈ kept) (hkept : kept.Nodup) :
    (distinctLoop seen kept names).Nodup := by
  induction names generalizing seen kept with
  | nil => exact List.nodup_reverse.2 hkept
  | cons name names ih =>
    unfold distinctLoop
    split
    · exact ih hsame hkept
    · rename_i hnew
      refine ih (fun other => ?_) (List.nodup_cons.2 ⟨fun hmem => hnew ((hsame name).2 hmem), hkept⟩)
      rw [Std.HashSet.contains_insert, Bool.or_eq_true, beq_iff_eq, List.mem_cons, hsame, eq_comm]

theorem nodup_distinct (names : List String) : (distinct names).Nodup :=
  nodup_distinctLoop (by simp) List.nodup_nil

theorem Gathered.followed (h : Gathered source (name :: way) direct [] result)
    (hdirect : source.directSupertypes name = .ok direct) :
    Followed source way name result.1.supertypes result.1.cutAt where
  nodup := h.nodup
  step up hstep := h.subset (List.mem_append_left _ ((ClassSource.step_iff hdirect).1 hstep))
  covered := h.covered
  reached other hmem := by
    obtain hmem | ⟨first, hfirst, hreached⟩ := h.reached other hmem
    · cases hmem
    · exact .head' ((ClassSource.step_iff hdirect).2 hfirst) hreached

/-! ## The cases of the search -/

theorem inherited_of_known (hknown : known[name]? = some supertypes) :
    inherited source way name known = (⟨supertypes, none⟩, known) := by
  rw [inherited, hknown]

theorem inherited_of_unavailable {fault : SupertypeFault} (hnew : known[name]? = none)
    (hfresh : way.contains name = false) (hfault : source.directSupertypes name = .error fault) :
    inherited source way name known = (⟨[], none⟩, known) := by
  rw [inherited, hnew]
  simp only [hfresh, ↓reduceDIte]
  split
  · rfl
  · rename_i h
    cases hfault.symm.trans h

theorem inherited_of_entered (hnew : known[name]? = none) (hentered : ¬ way.contains name = false) :
    inherited source way name known = (⟨[], some (placeOn way name)⟩, known) := by
  rw [inherited, hnew]
  simp only [dif_neg hentered, placeOn]

theorem whole_iff {place : Nat} : (match cutAt with
      | none => true
      | some cut => decide (place ≤ cut)) = true ↔ ∀ cut ∈ cutAt, place ≤ cut := by
  cases cutAt <;> simp

/-- A class that the search enters is kept unless the search was cut below it. -/
theorem inherited_of_direct (hnew : known[name]? = none) (hfresh : way.contains name = false)
    (hdirect : source.directSupertypes name = .ok direct)
    (hrun : gather source (name :: way) direct [] none known = result) :
    (∀ place ∈ result.1.cutAt, way.length ≤ place) ∧
        inherited source way name known =
          (⟨result.1.supertypes, none⟩, keep result.2 name result.1.supertypes) ∨
      (¬ ∀ place ∈ result.1.cutAt, way.length ≤ place) ∧ inherited source way name known = result := by
  rw [inherited, hnew]
  simp only [hfresh, ↓reduceDIte]
  split
  · rename_i h
    cases hdirect.symm.trans h
  · rename_i h
    cases hdirect.symm.trans h
    rw [hrun]
    by_cases hwhole : ∀ place ∈ result.1.cutAt, way.length ≤ place
    · exact .inl ⟨hwhole, if_pos (whole_iff.2 hwhole)⟩
    · exact .inr ⟨hwhole, if_neg fun h => hwhole (whole_iff.1 h)⟩

/-! ## What they cover -/

theorem met_of_known (h : KnowsClosures source known) (hknown : known[name]? = some supertypes) :
    Met source way name (⟨supertypes, none⟩, known) where
  known := h
  covered _ hmem := .inl fun _ hstep => (h name supertypes hknown).2.mem_of_step hmem hstep
  reached other hmem := ((h name supertypes hknown).2.mem_iff other).1 hmem

theorem met_of_unavailable {fault : SupertypeFault} (h : KnowsClosures source known)
    (hfault : source.directSupertypes name = .error fault) : Met source way name (⟨[], none⟩, known) where
  known := h
  covered _ hmem := .inl fun _ hstep =>
    absurd (List.mem_singleton.1 hmem ▸ hstep) (ClassSource.not_step hfault)
  reached _ hmem := (nomatch hmem)

/-- The search is cut short where it meets a class that it is in the middle of. -/
theorem met_of_entered (h : KnowsClosures source known) (hmem : name ∈ way) :
    Met source way name (⟨[], some (placeOn way name)⟩, known) where
  known := h
  covered other hother := by
    obtain rfl : other = name := List.mem_singleton.1 hother
    exact .inr ⟨hmem, _, rfl, Nat.le_refl _⟩
  reached _ hmem := (nomatch hmem)

theorem Gathered.met_whole (h : Gathered source (name :: way) direct [] result)
    (hdirect : source.directSupertypes name = .ok direct) (hcuts : ∀ place ∈ result.1.cutAt, way.length ≤ place) :
    Met source way name (⟨result.1.supertypes, none⟩, keep result.2 name result.1.supertypes) := by
  have hclosure := (h.followed hdirect).isClosure hcuts
  exact {
    known := h.known.keep ⟨direct, ClassSource.directSupertypes_eq_ok_iff.1 hdirect⟩ hclosure
    covered := fun _ hmem => .inl fun _ hstep => hclosure.mem_of_step hmem hstep
    reached := (h.followed hdirect).reached }

theorem Gathered.met_cut (h : Gathered source (name :: way) direct [] result)
    (hdirect : source.directSupertypes name = .ok direct) : Met source way name result where
  known := h.known
  covered := (h.followed hdirect).leave
  reached := (h.followed hdirect).reached

theorem gathered_nil (h : KnowsClosures source known)
    (hseen : ∀ other ∈ seen, Covered source way seen cutAt other) :
    Gathered source way [] seen (⟨distinct seen.reverse, cutAt⟩, known) := by
  have hmem : ∀ other, other ∈ distinct seen.reverse ↔ other ∈ seen := fun other =>
    mem_distinct.trans List.mem_reverse
  exact {
    known := h
    nodup := nodup_distinct _
    covered := fun _ hother => (hseen _ ((hmem _).1 hother)).mono (fun up => (hmem up).2)
      fun place hplace => ⟨place, hplace, Nat.le_refl _⟩
    subset := fun _ => (hmem _).2
    reached := fun _ hother => .inl ((hmem _).1 hother) }

/-- What was seen before and what one more name adds is covered together. -/
theorem Met.covered_seen (h : Met source way name result)
    (hseen : ∀ other ∈ seen, Covered source way seen cutAt other) :
    ∀ other ∈ result.1.supertypes.reverse ++ name :: seen,
      Covered source way (result.1.supertypes.reverse ++ name :: seen) (lowest cutAt result.1.cutAt) other := by
  intro other hmem
  have hcases : other ∈ name :: result.1.supertypes ∨ other ∈ seen := by
    simp only [List.mem_append, List.mem_reverse, List.mem_cons] at hmem ⊢
    tauto
  rcases hcases with hnew | hold
  · exact (h.covered other hnew).mono (fun up hup => List.mem_append_left _ (List.mem_reverse.2 hup))
      exists_mem_lowest_right
  · exact (hseen other hold).mono (fun up hup => List.mem_append_right _ (List.mem_cons_of_mem _ hup))
      exists_mem_lowest_left

theorem Met.gathered_cons {rest : List String} {last : Lineage × Std.HashMap String (List String)}
    (h : Met source way name result)
    (hrest : Gathered source way rest (result.1.supertypes.reverse ++ name :: seen) last) :
    Gathered source way (name :: rest) seen last where
  known := hrest.known
  nodup := hrest.nodup
  covered := hrest.covered
  subset other hmem := by
    refine hrest.subset ?_
    simp only [List.mem_append, List.mem_cons] at hmem ⊢
    tauto
  reached other hmem := by
    rcases hrest.reached other hmem with hseen | ⟨first, hfirst, hreached⟩
    · rcases List.mem_append.1 hseen with hnew | hold
      · exact .inr ⟨name, List.mem_cons_self, (h.reached other (List.mem_reverse.1 hnew)).to_reflTransGen⟩
      · rcases List.mem_cons.1 hold with rfl | hold
        · exact .inr ⟨other, List.mem_cons_self, .refl⟩
        · exact .inl hold
    · exact .inr ⟨first, List.mem_cons_of_mem _ hfirst, hreached⟩

/-- The two halves of the search, by induction along their calls. -/
theorem met_and_gathered (source : ClassSource) :
    (∀ way name known, KnowsClosures source known → Met source way name (inherited source way name known)) ∧
      ∀ way direct seen cutAt known, KnowsClosures source known →
        (∀ other ∈ seen, Covered source way seen cutAt other) →
        Gathered source way direct seen (gather source way direct seen cutAt known) := by
  refine inherited.mutual_induct source _ _ ?known ?unavailable ?whole ?cut ?entered ?nil ?cons
  case known =>
    intro way name known supertypes hknown h
    rw [inherited_of_known hknown]
    exact met_of_known h hknown
  case unavailable =>
    intro way name known hnew hfresh fault hfault h
    rw [inherited_of_unavailable hnew hfresh hfault]
    exact met_of_unavailable h hfault
  case whole | cut =>
    intro way name known hnew hfresh direct hdirect _ found after hrun _ _ ih h
    have hgathered := ih h (List.forall_mem_nil _)
    rw [hrun] at hgathered
    obtain ⟨hwhole, hinherited⟩ | ⟨-, hinherited⟩ := inherited_of_direct hnew hfresh hdirect hrun
    · exact hinherited ▸ hgathered.met_whole hdirect hwhole
    · exact hinherited ▸ hgathered.met_cut hdirect
  case entered =>
    intro way name known hnew hentered h
    rw [inherited_of_entered hnew hentered]
    exact met_of_entered h (by simpa using hentered)
  case nil =>
    intro way seen cutAt known h hseen
    rw [gather]
    exact gathered_nil h hseen
  case cons =>
    intro way seen cutAt known name rest found after hrun ihname ihrest h hseen
    have hmet := ihname h
    rw [hrun] at hmet
    rw [gather, hrun]
    exact hmet.gathered_cons (ihrest hmet.known (hmet.covered_seen hseen))

/-- What is kept for a class does not change while the search is in the middle of it. -/
theorem getElem?_of_entered (source : ClassSource) :
    (∀ way name known, ∀ other ∈ way, (inherited source way name known).2[other]? = known[other]?) ∧
      ∀ way direct seen cutAt known, ∀ other ∈ way,
        (gather source way direct seen cutAt known).2[other]? = known[other]? := by
  refine inherited.mutual_induct source _ _ ?known ?unavailable ?whole ?cut ?entered ?nil ?cons
  case known =>
    intro way name known supertypes hknown other _
    rw [inherited_of_known hknown]
  case unavailable =>
    intro way name known hnew hfresh fault hfault other _
    rw [inherited_of_unavailable hnew hfresh hfault]
  case whole | cut =>
    intro way name known hnew hfresh direct hdirect _ found after hrun _ _ ih other hmem
    have hafter := ih other (List.mem_cons_of_mem _ hmem)
    rw [hrun] at hafter
    obtain ⟨-, hinherited⟩ | ⟨-, hinherited⟩ := inherited_of_direct hnew hfresh hdirect hrun
    · rw [hinherited, keep, Std.HashMap.getElem?_insertIfNew, if_neg, hafter]
      rintro ⟨hsame, -⟩
      rw [eq_of_beq hsame, List.contains_iff_mem.2 hmem] at hfresh
      cases hfresh
    · rw [hinherited, hafter]
  case entered =>
    intro way name known hnew hentered other _
    rw [inherited_of_entered hnew hentered]
  case nil =>
    intro way seen cutAt known other _
    rw [gather]
  case cons =>
    intro way seen cutAt known name rest found after hrun ihname ihrest other hmem
    have hfirst := ihname other hmem
    rw [hrun] at hfirst
    rw [gather, hrun]
    exact (ihrest other hmem).trans hfirst

/-! ## Calls -/

/-- A call for the supertypes of a class fails exactly if the class is not available, and otherwise lists its
closure and keeps that list. -/
structure Answered (source : ClassSource) (name : String)
    (result : Except SupertypeFault (List String) × Hierarchy) : Prop where
  fails_iff : (∃ fault, result.1 = .error fault) ↔ ¬ source.Available name
  closure : ∀ supertypes, result.1 = .ok supertypes → source.IsClosure name supertypes
  kept : ∀ supertypes, result.1 = .ok supertypes → result.2.known[name]? = some supertypes
  sameSource : result.2.source = source
  known : KnowsClosures source result.2.known

/-- The hierarchy of a source after calls for some classes. -/
def afterCalls (source : ClassSource) (names : List String) : Hierarchy :=
  names.foldl (fun h name => (h.supertypes name).2) (ofSource source)

theorem answered_ok {h : Hierarchy} (havailable : source.Available name)
    (hclosure : source.IsClosure name supertypes) (hkept : h.known[name]? = some supertypes)
    (hsource : h.source = source) (hknown : KnowsClosures source h.known) :
    Answered source name (.ok supertypes, h) where
  fails_iff := ⟨fun ⟨_, hfault⟩ => (nomatch hfault), fun hnot => absurd havailable hnot⟩
  closure := fun _ heq => Except.ok.inj heq ▸ hclosure
  kept := fun _ heq => Except.ok.inj heq ▸ hkept
  sameSource := hsource
  known := hknown

theorem answered_error {h : Hierarchy} {fault : SupertypeFault} (hunavailable : ¬ source.Available name)
    (hsource : h.source = source) (hknown : KnowsClosures source h.known) :
    Answered source name (.error fault, h) where
  fails_iff := ⟨fun _ => hunavailable, fun _ => ⟨fault, rfl⟩⟩
  closure := fun _ heq => (nomatch heq)
  kept := fun _ heq => (nomatch heq)
  sameSource := hsource
  known := hknown

theorem answered_supertypes {h : Hierarchy} (hknown : KnowsClosures h.source h.known) (name : String) :
    Answered h.source name (h.supertypes name) := by
  unfold supertypes
  split
  · rename_i found hfound
    obtain ⟨havailable, hclosure⟩ := hknown name found hfound
    exact answered_ok havailable hclosure hfound rfl hknown
  · rename_i hnew
    split
    · rename_i fault hfault
      exact answered_error (ClassSource.not_available hfault) rfl hknown
    · rename_i direct hdirect
      have havailable : h.source.Available name := ⟨direct, ClassSource.directSupertypes_eq_ok_iff.1 hdirect⟩
      have hgathered := (met_and_gathered h.source).2 [name] direct [] none h.known hknown
        (List.forall_mem_nil _)
      -- The search began with this class, so no cut is further down.
      have hclosure := (hgathered.followed hdirect).isClosure fun _ _ => Nat.zero_le _
      have hnone := (getElem?_of_entered h.source).2 [name] direct [] none h.known name List.mem_cons_self
      refine answered_ok havailable hclosure ?_ rfl (hgathered.known.keep havailable hclosure)
      rw [keep, Std.HashMap.getElem?_insertIfNew, if_pos]
      refine ⟨beq_self_eq_true name, ?_⟩
      rw [Std.HashMap.mem_iff_isSome_getElem?, hnone, hnew, Option.isSome_none]
      exact Bool.false_ne_true

theorem knowsClosures_foldl {h : Hierarchy} (hknown : KnowsClosures h.source h.known) (names : List String) :
    (names.foldl (fun h name => (h.supertypes name).2) h).source = h.source ∧
      KnowsClosures h.source (names.foldl (fun h name => (h.supertypes name).2) h).known := by
  induction names generalizing h with
  | nil => exact ⟨rfl, hknown⟩
  | cons name names ih =>
    have hanswered := answered_supertypes hknown name
    have hrest := @ih (h.supertypes name).2 (hanswered.sameSource.symm ▸ hanswered.known)
    rwa [hanswered.sameSource] at hrest

/-- After any calls all lists that are kept are closures, and the next call gives one unless its class is not
available. -/
theorem supertypes_closure (source : ClassSource) (names : List String) (name : String) :
    KnowsClosures source (afterCalls source names).known ∧
      Answered source name ((afterCalls source names).supertypes name) := by
  obtain ⟨hsource, hknown⟩ := @knowsClosures_foldl (ofSource source) (knowsClosures_empty source) names
  change (afterCalls source names).source = source at hsource
  have hanswered := answered_supertypes (h := afterCalls source names) (hsource.symm ▸ hknown) name
  rw [hsource] at hanswered
  exact ⟨hknown, hanswered⟩

end Hierarchy

end ClassSandbox
