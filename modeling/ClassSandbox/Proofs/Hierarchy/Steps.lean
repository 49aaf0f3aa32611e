import Mathlib.Data.Set.Card
import Mathlib.Logic.Function.Iterate
import ClassSandbox.Proofs.Hierarchy.Queries

/-!
# The steps of a search

`Hierarchy.supertypes` calls itself for the classes that it meets. Here the same search takes one step after another
(`step`) and has the classes that it is in the middle of on a stack, the nearest on top. A class is put there once it
has been read, before it is known whether the names of its supertypes can be resolved, and taken off when all of them
have been followed.

The steps come to an end with what `Hierarchy.supertypes` gives, and until then no class is on the stack twice and each
of them can be read (`supertypes_terminates`). So the stack never has more classes than the source has readable ones.
Whatever the source has and whatever lists are already known, this is so because a class that is on the way is not
entered again (`way_of_next`).
-/

namespace ClassSandbox

namespace ClassSource

variable {source : ClassSource} {name : String} {direct : List String} {file : ClassFile}

/-- A class as it is read, before its names are resolved. -/
def read (source : ClassSource) (name : String) : Except SupertypeFault ClassFile :=
  match source.load name with
  | .error fault => .error (.load fault)
  | .ok bytes =>
    match ClassFile.parse bytes with
    | .error fault => .error (.classFile fault)
    | .ok file => .ok file

/-- The class loads and parses. -/
def Readable (source : ClassSource) (name : String) : Prop :=
  ∃ bytes file, source.load name = .ok bytes ∧ ClassFile.parse bytes = .ok file

theorem directSupertypes_eq (source : ClassSource) (name : String) :
    source.directSupertypes name =
      match source.read name with
      | .error fault => .error fault
      | .ok file =>
        match file.directSupertypes with
        | .error fault => .error (.classFile fault)
        | .ok direct => .ok direct := by
  unfold directSupertypes read
  cases source.load name with
  | error fault => rfl
  | ok bytes =>
    dsimp only
    cases ClassFile.parse bytes <;> rfl

theorem exists_read_of_direct (h : source.directSupertypes name = .ok direct) :
    ∃ file, source.read name = .ok file ∧ file.directSupertypes = .ok direct := by
  rw [directSupertypes_eq] at h
  split at h
  · cases h
  · rename_i file hread
    split at h
    · cases h
    · rename_i hdirect
      cases h
      exact ⟨file, hread, hdirect⟩

theorem read_of_unavailable {fault : SupertypeFault} (h : source.directSupertypes name = .error fault) :
    source.read name = .error fault ∨
      ∃ file cause, source.read name = .ok file ∧ file.directSupertypes = .error cause ∧ fault = .classFile cause := by
  rw [directSupertypes_eq] at h
  split at h
  · rename_i hread
    cases h
    exact .inl hread
  · rename_i file hread
    split at h
    · rename_i cause hdirect
      cases h
      exact .inr ⟨file, cause, hread, hdirect, rfl⟩
    · cases h

theorem readable_of_read (h : source.read name = .ok file) : source.Readable name := by
  unfold read at h
  split at h
  · cases h
  · rename_i bytes hload
    split at h
    · cases h
    · rename_i other hparse
      exact ⟨bytes, other, hload, hparse⟩

theorem finite_readable (source : ClassSource) : {name | source.Readable name}.Finite := by
  refine (source.classes.map Prod.fst).finite_toSet.subset ?_
  rintro name ⟨bytes, -, hload, -⟩
  unfold load at hload
  split at hload
  · rename_i found hfound
    obtain ⟨before, after, hclasses, -⟩ := List.lookup_eq_some_iff.1 hfound
    exact List.mem_map_of_mem (f := Prod.fst) (a := (name, found)) (by simp [hclasses])
  · cases hload

end ClassSource

namespace Hierarchy

/-! ## One step -/

/-- A class that the search is in the middle of, with the direct supertypes that are still to be followed, and what has
been found for it, newest first. -/
structure Visit where
  name : String
  rest : List String
  seen : List String
  cutAt : Option Nat

/-- What is done next. -/
inductive Task where
  /-- Find the supertypes of a class that the one on top names. -/
  | meet (name : String)
  /-- Resolve the names of the class on top, which has been read. -/
  | resolve (file : ClassFile)
  /-- Go on with the class on top. -/
  | follow
  /-- Add what was found for the class that was met last. -/
  | add (found : Lineage)

/-- A search on its way. -/
structure Moment where
  top : Visit
  below : List Visit
  known : Std.HashMap String (List String)
  task : Task

/-- The classes that the search is in the middle of, the nearest first. -/
def Moment.way (moment : Moment) : List String := moment.top.name :: moment.below.map Visit.name

inductive Progress where
  | running (moment : Moment)
  | finished (result : Except SupertypeFault (List String)) (known : Std.HashMap String (List String))

/-- The search is done with a class. What it found is kept, unless it was cut short further down. -/
def leave (name : String) (below : List Visit) (found : Lineage) (known : Std.HashMap String (List String)) :
    Progress :=
  match below with
  | [] => .finished (.ok found.supertypes) (keep known name found.supertypes)
  | next :: below =>
    if ∀ place ∈ found.cutAt, (next :: below).length ≤ place then
      .running ⟨next, below, keep known name found.supertypes, .add ⟨found.supertypes, none⟩⟩
    else .running ⟨next, below, known, .add found⟩

/-- One step of a search. -/
def next (source : ClassSource) (moment : Moment) : Progress :=
  let ⟨top, below, known, task⟩ := moment
  match task with
  | .meet name =>
    match known[name]? with
    | some supertypes => .running ⟨top, below, known, .add ⟨supertypes, none⟩⟩
    | none =>
      if moment.way.contains name then
        .running ⟨top, below, known, .add ⟨[], some (placeOn moment.way name)⟩⟩
      else
        match source.read name with
        | .error _ => .running ⟨top, below, known, .add ⟨[], none⟩⟩
        | .ok file => .running ⟨⟨name, [], [], none⟩, top :: below, known, .resolve file⟩
  | .resolve file =>
    match file.directSupertypes, below with
    | .ok direct, below => .running ⟨{ top with rest := direct }, below, known, .follow⟩
    | .error fault, [] => .finished (.error (.classFile fault)) known
    | .error _, next :: below => .running ⟨next, below, known, .add ⟨[], none⟩⟩
  | .follow =>
    match top.rest with
    | [] => leave top.name below ⟨distinct top.seen.reverse, top.cutAt⟩ known
    | name :: rest => .running ⟨{ top with rest, seen := name :: top.seen }, below, known, .meet name⟩
  | .add found =>
    let seen := found.supertypes.reverse ++ top.seen
    .running ⟨{ top with seen, cutAt := lowest top.cutAt found.cutAt }, below, known, .follow⟩

def step (source : ClassSource) : Progress → Progress
  | .running moment => next source moment
  | .finished result known => .finished result known

/-- The beginning of a search. It is over at once if the class is known or cannot be read. -/
def start (h : Hierarchy) (name : String) : Progress :=
  match h.known[name]? with
  | some supertypes => .finished (.ok supertypes) h.known
  | none =>
    match h.source.read name with
    | .error fault => .finished (.error fault) h.known
    | .ok file => .running ⟨⟨name, [], [], none⟩, [], h.known, .resolve file⟩

/-! ## All steps -/

variable {source : ClassSource} {name : String} {direct : List String} {top : Visit} {below : List Visit}
  {known : Std.HashMap String (List String)} {moment : Moment} {first middle last : Progress}

/-- A search gets from one place to another. -/
def Leads (source : ClassSource) (first last : Progress) : Prop := ∃ steps, (step source)^[steps] first = last

theorem Leads.refl (source : ClassSource) (first : Progress) : Leads source first first := ⟨0, rfl⟩

theorem Leads.trans (h : Leads source first middle) (hmore : Leads source middle last) : Leads source first last := by
  obtain ⟨m, rfl⟩ := h
  obtain ⟨n, rfl⟩ := hmore
  exact ⟨n + m, Function.iterate_add_apply (step source) n m first⟩

theorem Leads.head (h : next source moment = middle) (hmore : Leads source middle last) :
    Leads source (.running moment) last :=
  .trans ⟨1, h⟩ hmore

theorem leads_of_next (h : next source moment = last) : Leads source (.running moment) last := ⟨1, h⟩

theorem next_of_read {file : ClassFile} (hnew : known[name]? = none)
    (hfresh : (top.name :: below.map Visit.name).contains name = false) (hread : source.read name = .ok file) :
    next source ⟨top, below, known, .meet name⟩ =
      .running ⟨⟨name, [], [], none⟩, top :: below, known, .resolve file⟩ := by
  simp only [next, hnew, Moment.way, hfresh, hread, Bool.false_eq_true, ↓reduceIte]

/-- A class that is not available is left at once, or as soon as its names cannot be resolved. -/
theorem leads_of_unavailable {fault : SupertypeFault} (hnew : known[name]? = none)
    (hfresh : (top.name :: below.map Visit.name).contains name = false)
    (hfault : source.directSupertypes name = .error fault) :
    Leads source (.running ⟨top, below, known, .meet name⟩) (.running ⟨top, below, known, .add ⟨[], none⟩⟩) := by
  rcases ClassSource.read_of_unavailable hfault with hread | ⟨file, cause, hread, hdirect, -⟩
  · refine leads_of_next ?_
    simp only [next, hnew, Moment.way, hfresh, hread, Bool.false_eq_true, ↓reduceIte]
  · refine .head (next_of_read hnew hfresh hread) (leads_of_next ?_)
    simp only [next, hdirect]

/-- A class that is available is put on the stack and followed. -/
theorem leads_of_direct (hnew : known[name]? = none)
    (hfresh : (top.name :: below.map Visit.name).contains name = false)
    (hdirect : source.directSupertypes name = .ok direct) :
    Leads source (.running ⟨top, below, known, .meet name⟩)
      (.running ⟨⟨name, direct, [], none⟩, top :: below, known, .follow⟩) := by
  obtain ⟨file, hread, hfile⟩ := ClassSource.exists_read_of_direct hdirect
  refine .head (next_of_read hnew hfresh hread) (leads_of_next ?_)
  simp only [next, hfile]

/-- The two halves of the search, by induction along their calls. The way of each call is what is on the stack. -/
theorem leads_inherited_and_gather (source : ClassSource) :
    (∀ way name known, ∀ top below, way = top.name :: below.map Visit.name →
        Leads source (.running ⟨top, below, known, .meet name⟩)
          (.running ⟨top, below, (inherited source way name known).2, .add (inherited source way name known).1⟩)) ∧
      ∀ way direct seen cutAt known, ∀ name below, way = name :: below.map Visit.name →
        Leads source (.running ⟨⟨name, direct, seen, cutAt⟩, below, known, .follow⟩)
          (leave name below (gather source way direct seen cutAt known).1
            (gather source way direct seen cutAt known).2) := by
  refine inherited.mutual_induct source _ _ ?known ?unavailable ?whole ?cut ?entered ?nil ?cons
  case known =>
    intro way name known supertypes hknown top below _
    rw [inherited_of_known hknown]
    refine leads_of_next ?_
    simp only [next, hknown]
  case unavailable =>
    rintro way name known hnew hfresh fault hfault top below rfl
    rw [inherited_of_unavailable hnew hfresh hfault]
    exact leads_of_unavailable hnew hfresh hfault
  case whole | cut =>
    rintro way name known hnew hfresh direct hdirect _ found after hrun _ _ ih top below rfl
    have hgather := ih name (top :: below) rfl
    refine (leads_of_direct hnew hfresh hdirect).trans (hgather.trans ?_)
    rw [hrun]
    obtain ⟨hwhole, hinherited⟩ | ⟨hcut, hinherited⟩ := inherited_of_direct hnew hfresh hdirect hrun
    · rw [hinherited, leave, if_pos]
      · exact .refl source _
      · simpa using hwhole
    · rw [hinherited, leave, if_neg]
      · exact .refl source _
      · simpa using hcut
  case entered =>
    rintro way name known hnew hentered top below rfl
    rw [inherited_of_entered hnew hentered]
    refine leads_of_next ?_
    simp only [next, hnew, Moment.way, Bool.eq_true_of_not_eq_false hentered, ↓reduceIte]
  case nil =>
    intro way seen cutAt known name below _
    rw [gather]
    exact leads_of_next rfl
  case cons =>
    rintro way seen cutAt known name rest found after hrun ihname ihrest other below rfl
    have hname := ihname ⟨other, rest, name :: seen, cutAt⟩ below rfl
    rw [hrun] at hname
    rw [gather, hrun]
    exact .head rfl (hname.trans (.head rfl (ihrest other below rfl)))

theorem step_start_of_direct {h : Hierarchy} (hnew : h.known[name]? = none)
    (hdirect : h.source.directSupertypes name = .ok direct) :
    step h.source (start h name) = .running ⟨⟨name, direct, [], none⟩, [], h.known, .follow⟩ := by
  obtain ⟨file, hread, hfile⟩ := ClassSource.exists_read_of_direct hdirect
  simp only [start, hnew, hread, step, next, hfile]

/-- A search ends with what the call gives. -/
theorem leads_supertypes (h : Hierarchy) (name : String) :
    Leads h.source (start h name) (.finished (h.supertypes name).1 (h.supertypes name).2.known) := by
  cases hknown : h.known[name]? with
  | some supertypes =>
    rw [supertypes_of_known hknown, start, hknown]
    exact .refl h.source _
  | none =>
    cases hdirect : h.source.directSupertypes name with
    | error fault =>
      rw [supertypes_of_unavailable hknown hdirect, start, hknown]
      rcases ClassSource.read_of_unavailable hdirect with hread | ⟨file, cause, hread, hcause, rfl⟩
      · rw [hread]
        exact .refl h.source _
      · rw [hread]
        refine leads_of_next ?_
        simp only [next, hcause]
    | ok direct =>
      rw [supertypes_of_direct hknown hdirect rfl]
      have hsearch := (leads_inherited_and_gather h.source).2 [name] direct [] none h.known name [] rfl
      exact .trans ⟨1, step_start_of_direct hknown hdirect⟩ hsearch

/-! ## What is on the stack -/

/-- No class is on the stack twice, and all of them load and parse. -/
structure Moment.Proper (source : ClassSource) (moment : Moment) : Prop where
  nodup : moment.way.Nodup
  readable : ∀ entered ∈ moment.way, source.Readable entered

theorem way_of_leave {found : Lineage} {after : Moment} (h : leave name below found known = .running after) :
    after.way = below.map Visit.name := by
  unfold leave at h
  split at h
  · cases h
  · split at h <;> cases h <;> rfl

/-- A step leaves the stack as it is, takes the class on top away, or adds one that has been read and was not there. -/
theorem way_of_next {after : Moment} (h : next source moment = .running after) :
    after.way = moment.way ∨ after.way = moment.way.tail ∨
      ∃ name, after.way = name :: moment.way ∧ name ∉ moment.way ∧ source.Readable name := by
  obtain ⟨top, below, known, task⟩ := moment
  cases task with
  | meet name =>
    simp only [next] at h
    split at h
    · cases h
      exact .inl rfl
    · split at h
      · cases h
        exact .inl rfl
      · rename_i hfresh
        split at h
        · cases h
          exact .inl rfl
        · rename_i hread
          cases h
          exact .inr (.inr ⟨name, rfl, by simpa using hfresh, ClassSource.readable_of_read hread⟩)
  | resolve file =>
    simp only [next] at h
    split at h
    · cases h
      exact .inl rfl
    · cases h
    · cases h
      exact .inr (.inl rfl)
  | follow =>
    simp only [next] at h
    split at h
    · exact .inr (.inl (way_of_leave h))
    · cases h
      exact .inl rfl
  | add found =>
    cases h
    exact .inl rfl

theorem Moment.Proper.next {after : Moment} (h : moment.Proper source) (hnext : next source moment = .running after) :
    after.Proper source := by
  rcases way_of_next hnext with hway | hway | ⟨name, hway, hfresh, hreadable⟩
  · exact ⟨hway ▸ h.nodup, hway ▸ h.readable⟩
  · exact ⟨hway ▸ h.nodup.tail, fun entered hmem => h.readable entered (List.mem_of_mem_tail (hway ▸ hmem))⟩
  · exact ⟨hway ▸ List.nodup_cons.2 ⟨hfresh, h.nodup⟩, hway ▸ List.forall_mem_cons.2 ⟨hreadable, h.readable⟩⟩

theorem proper_of_start {h : Hierarchy} (hstart : start h name = .running moment) : moment.Proper h.source := by
  unfold start at hstart
  split at hstart
  · cases hstart
  · split at hstart
    · cases hstart
    · rename_i hread
      cases hstart
      exact ⟨List.nodup_singleton name, List.forall_mem_singleton.2 (ClassSource.readable_of_read hread)⟩

/-- A search that goes on after a step was going on before it. -/
theorem exists_of_step {progress : Progress} (h : step source progress = .running moment) :
    ∃ before, progress = .running before ∧ next source before = .running moment := by
  cases progress with
  | running before => exact ⟨before, rfl, h⟩
  | finished result known => cases h

theorem proper_of_steps {h : Hierarchy} {steps : Nat}
    (hrun : (step h.source)^[steps] (start h name) = .running moment) : moment.Proper h.source := by
  induction steps generalizing moment with
  | zero => exact proper_of_start hrun
  | succ steps ih =>
    rw [Function.iterate_succ_apply'] at hrun
    obtain ⟨before, hbefore, hnext⟩ := exists_of_step hrun
    exact (ih hbefore).next hnext

theorem Moment.Proper.length_le (h : moment.Proper source) :
    moment.way.length ≤ {name | source.Readable name}.ncard := by
  classical
  rw [← List.toFinset_card_of_nodup h.nodup, ← Set.ncard_coe_finset]
  refine Set.ncard_le_ncard (fun entered hmem => ?_) (ClassSource.finite_readable source)
  exact h.readable entered (by simpa using hmem)

/-- Whatever a hierarchy knows, a search for the supertypes of a class comes to an end, with what the call gives and
keeps. On the way no class is on the stack twice, and all that are there load and parse, so that there are never more
than the source has of these. What is found for a class is what the call from the stack gives for it. -/
theorem supertypes_terminates (h : Hierarchy) (name : String) :
    (∃ steps, (step h.source)^[steps] (start h name) =
        .finished (h.supertypes name).1 (h.supertypes name).2.known) ∧
      ∀ steps moment, (step h.source)^[steps] (start h name) = .running moment →
        (moment.way.Nodup ∧ (∀ entered ∈ moment.way, h.source.Readable entered) ∧
          moment.way.length ≤ {name | h.source.Readable name}.ncard) ∧
        ∀ other, moment.task = .meet other →
          Leads h.source (.running moment) (.running { moment with
            known := (inherited h.source moment.way other moment.known).2
            task := .add (inherited h.source moment.way other moment.known).1 }) := by
  refine ⟨leads_supertypes h name, fun steps moment hrun => ⟨?_, ?_⟩⟩
  · have hproper := proper_of_steps hrun
    exact ⟨hproper.nodup, hproper.readable, hproper.length_le⟩
  · rintro other htask
    obtain ⟨top, below, known, task⟩ := moment
    obtain rfl : task = .meet other := htask
    exact (leads_inherited_and_gather h.source).1 _ other known top below rfl

/-- The search from `D` meets `X` and enters it, and ends although each names the other. -/
theorem supertypes_terminates_knot :
    ∃ met entered, (step knotSource)^[2] (start (ofSource knotSource) "D") = .running met ∧ met.task = .meet "X" ∧
      Leads knotSource (.running met) (.running { met with
        known := (inherited knotSource ["D"] "X" met.known).2
        task := .add (inherited knotSource ["D"] "X" met.known).1 }) ∧
      (step knotSource)^[3] (start (ofSource knotSource) "D") = .running entered ∧ entered.way = ["X", "D"] ∧
      entered.way.Nodup ∧ (∀ name ∈ entered.way, knotSource.Readable name) ∧
      2 ≤ {name | knotSource.Readable name}.ncard ∧
      ∃ steps, (step knotSource)^[steps] (start (ofSource knotSource) "D") =
        .finished (.ok ["X", "D", "Z", "W"]) firstKnown := by
  obtain ⟨hdirect, hdirect', -, -⟩ := directSupertypes_knotSource
  obtain ⟨file, hread, -⟩ := ClassSource.exists_read_of_direct hdirect'
  have hnone : ∀ name : String, (ofSource knotSource).known[name]? = none := fun _ => Std.HashMap.getElem?_empty
  have hmet : (step knotSource)^[2] (start (ofSource knotSource) "D") =
      .running ⟨⟨"D", ["W"], ["X"], none⟩, [], (ofSource knotSource).known, .meet "X"⟩ :=
    congrArg (step knotSource) (step_start_of_direct (hnone "D") hdirect)
  have hentered : (step knotSource)^[3] (start (ofSource knotSource) "D") =
      .running ⟨⟨"X", [], [], none⟩, [⟨"D", ["W"], ["X"], none⟩], (ofSource knotSource).known, .resolve file⟩ := by
    rw [Function.iterate_succ_apply', hmet]
    exact next_of_read (hnone "X") (by decide) hread
  obtain ⟨hend, hway⟩ := supertypes_terminates (ofSource knotSource) "D"
  obtain ⟨⟨hnodup, hreadable, hle⟩, -⟩ := hway 3 _ hentered
  rw [supertypes_of_direct (h := ofSource knotSource) (hnone "D") hdirect gather_first] at hend
  exact ⟨_, _, hmet, rfl, (hway 2 _ hmet).2 "X" rfl, hentered, rfl, hnodup, hreadable, hle, hend⟩

end Hierarchy

end ClassSandbox
