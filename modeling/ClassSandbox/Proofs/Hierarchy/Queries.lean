import ClassSandbox.MethodCost
import ClassSandbox.Proofs.Hierarchy.History

/-!
# What earlier queries change

Earlier queries may leave another order of the supertypes of a class, and with it another cost of a method, but never
other supertypes, another report or a cost where there was none. They only do so if they met a class that is tangled
and that the class leads to (`answers_afterQueries`).

They do so if two classes are supertypes of each other: the list of the one that is asked for second is put together
from that of the first, while a search that begins with it cuts that list short (`order_depends_on_history`).
-/

namespace ClassSandbox

open Relation

namespace Hierarchy

variable {source : ClassSource} {name : String} {way direct seen : List String} {cutAt : Option Nat}
  {known : Std.HashMap String (List String)} {first : Lineage × Std.HashMap String (List String)}
  {h h' : Hierarchy}

/-! ## Queries -/

/-- What a hierarchy can be asked. -/
inductive Query where
  | supertypes (name : String)
  | cost (table : CostTable) (owner method : String)

namespace Query

/-- The class that a query is about. -/
def owner : Query → String
  | .supertypes name => name
  | .cost _ owner _ => owner

/-- The hierarchy that a query leaves behind. -/
def run (h : Hierarchy) : Query → Hierarchy
  | .supertypes name => (h.supertypes name).2
  | .cost table owner method => (table.lookup h owner method).2

/-- A query meets a class that is tangled and that some class leads to. -/
def Disturbs (source : ClassSource) (name : String) (query : Query) : Prop :=
  ∃ other, ReflTransGen source.Step query.owner other ∧ ReflTransGen source.Step name other ∧ source.Tangled other

end Query

/-- The hierarchy of a source after some queries. -/
def afterQueries (source : ClassSource) (queries : List Query) : Hierarchy :=
  queries.foldl Query.run (ofSource source)

theorem lookup_snd (table : CostTable) (h : Hierarchy) (owner method : String) :
    (table.lookup h owner method).2 = h ∨ (table.lookup h owner method).2 = (h.supertypes owner).2 := by
  unfold CostTable.lookup
  split
  · exact .inl rfl
  · split
    · exact .inl rfl
    · split <;> rename_i heq <;> exact .inr (by rw [heq])

/-- A query leaves the hierarchy as it is, or as a call for supertypes does. -/
theorem Query.run_eq (h : Hierarchy) (query : Query) :
    query.run h = h ∨ query.run h = (h.supertypes query.owner).2 := by
  cases query with
  | supertypes name => exact .inr rfl
  | cost table owner method => exact lookup_snd table h owner method

theorem exists_calls_of_queries (h : Hierarchy) (queries : List Query) :
    ∃ names, queries.foldl Query.run h = names.foldl (fun h name => (h.supertypes name).2) h ∧
      names ⊆ queries.map Query.owner := by
  induction queries generalizing h with
  | nil => exact ⟨[], rfl, List.nil_subset _⟩
  | cons query queries ih =>
    obtain ⟨names, hrun, hsubset⟩ := ih (query.run h)
    rcases query.run_eq h with hsame | hcall
    · exact ⟨names, by rw [List.foldl_cons, hrun, hsame], List.subset_cons_of_subset _ hsubset⟩
    · refine ⟨query.owner :: names, by rw [List.foldl_cons, hrun, hcall, List.foldl_cons], ?_⟩
      exact List.cons_subset_cons _ hsubset

/-! ## Answers -/

/-- Two hierarchies give a class the same supertypes and its methods the same costs. -/
structure SameAnswers (h h' : Hierarchy) (name : String) : Prop where
  supertypes : (h.supertypes name).1 = (h'.supertypes name).1
  cost : ∀ table method, (CostTable.lookup table h name method).1 = (table.lookup h' name method).1

/-- Two lists with the same supertypes, or the same fault. -/
def SameUpToOrder : Except SupertypeFault (List String) → Except SupertypeFault (List String) → Prop
  | .ok supertypes, .ok supertypes' => supertypes.Perm supertypes'
  | .error fault, .error fault' => fault = fault'
  | _, _ => False

/-- Two hierarchies give a class the same supertypes up to their order, report the same, and agree about which of its
methods have costs. -/
structure SimilarAnswers (h h' : Hierarchy) (name : String) : Prop where
  supertypes : SameUpToOrder (h.supertypes name).1 (h'.supertypes name).1
  cost : ∀ table method, (CostTable.lookup table h name method).1.1.isSome = (table.lookup h' name method).1.1.isSome
  report : ∀ table method, (CostTable.lookup table h name method).1.2 = (table.lookup h' name method).1.2

theorem SameUpToOrder.of_eq {result result' : Except SupertypeFault (List String)} (heq : result = result') :
    SameUpToOrder result result' := by
  subst heq
  cases result with
  | error fault => exact rfl
  | ok supertypes => exact .refl supertypes

/-- Hierarchies of the same classes that know closures give a class the same supertypes up to their order. -/
theorem sameUpToOrder (hsource : h'.source = h.source) (hknown : KnowsClosures h.source h.known)
    (hknown' : KnowsClosures h'.source h'.known) (name : String) :
    SameUpToOrder (h.supertypes name).1 (h'.supertypes name).1 := by
  cases hdirect : h.source.directSupertypes name with
  | error fault =>
    refine .of_eq ?_
    rw [supertypes_fst_of_unavailable hknown hdirect, supertypes_fst_of_unavailable hknown' (hsource ▸ hdirect)]
  | ok direct =>
    obtain ⟨found, hfound, hclosure⟩ := exists_supertypes_of_direct hknown hdirect
    obtain ⟨found', hfound', hclosure'⟩ := exists_supertypes_of_direct hknown' (hsource ▸ hdirect)
    rw [hsource] at hclosure'
    rw [hfound, hfound']
    exact (List.perm_ext_iff_of_nodup hclosure.nodup hclosure'.nodup).2 fun other =>
      (hclosure.mem_iff other).trans (hclosure'.mem_iff other).symm

/-- A cost depends on a hierarchy through the supertypes of the class only. -/
theorem lookup_fst_of_supertypes (table : CostTable) (h : Hierarchy) (owner method : String) :
    (table.lookup h owner method).1 =
      if owner.toList.head? = some '[' then (none, none)
      else match table.get? (CostTable.key owner method) with
        | some cost => (some cost, none)
        | none => match (h.supertypes owner).1 with
          | .error fault => (none, some (.unknownHierarchy owner fault.message))
          | .ok supertypes => (supertypes.findSome? fun up => table.get? (CostTable.key up method), none) := by
  unfold CostTable.lookup
  split
  · rfl
  · cases table.get? (CostTable.key owner method) with
    | some cost => rfl
    | none => rcases h.supertypes owner with ⟨_ | _, _⟩ <;> rfl

theorem sameAnswers_of_supertypes (heq : (h.supertypes name).1 = (h'.supertypes name).1) : SameAnswers h h' name where
  supertypes := heq
  cost table method := by rw [lookup_fst_of_supertypes, lookup_fst_of_supertypes, heq]

/-- The same classes have a first one with a cost in any order. -/
theorem isSome_findSome?_of_perm {α β : Type} {items items' : List α} (h : items.Perm items') (f : α → Option β) :
    (items.findSome? f).isSome = (items'.findSome? f).isSome := by
  rw [Bool.eq_iff_iff, List.findSome?_isSome_iff, List.findSome?_isSome_iff]
  simp only [h.mem_iff]

theorem similarAnswers_of_supertypes (hsame : SameUpToOrder (h.supertypes name).1 (h'.supertypes name).1) :
    SimilarAnswers h h' name := by
  have hcases : ∀ table method,
      (CostTable.lookup table h name method).1.1.isSome = (table.lookup h' name method).1.1.isSome ∧
        (CostTable.lookup table h name method).1.2 = (table.lookup h' name method).1.2 := by
    intro table method
    rw [lookup_fst_of_supertypes, lookup_fst_of_supertypes]
    cases hfirst : (h.supertypes name).1 <;> cases hsecond : (h'.supertypes name).1 <;>
      rw [hfirst, hsecond] at hsame
    case error.error fault fault' =>
      obtain rfl : fault = fault' := hsame
      exact ⟨rfl, rfl⟩
    case ok.ok found found' =>
      split
      · exact ⟨rfl, rfl⟩
      · split
        · exact ⟨rfl, rfl⟩
        · exact ⟨isSome_findSome?_of_perm hsame _, rfl⟩
    all_goals exact hsame.elim
  exact ⟨hsame, fun table method => (hcases table method).1, fun table method => (hcases table method).2⟩

/-- After any queries a class has the same supertypes up to their order as at first. If no query met a tangled class
that the class leads to, the order is also the same, and so are the costs. -/
theorem answers_afterQueries (source : ClassSource) (queries : List Query) (name : String) :
    SimilarAnswers (afterQueries source queries) (ofSource source) name ∧
      ((∀ query ∈ queries, ¬ query.Disturbs source name) →
        SameAnswers (afterQueries source queries) (ofSource source) name) := by
  obtain ⟨names, hcalls, howners⟩ := exists_calls_of_queries (ofSource source) queries
  change afterQueries source queries = afterCalls source names at hcalls
  rw [hcalls]
  obtain ⟨hsource, hclosures⟩ := @knowsClosures_foldl (ofSource source) (knowsClosures_empty source) names
  change (afterCalls source names).source = source at hsource
  change KnowsClosures source (afterCalls source names).known at hclosures
  have hclosures' : KnowsClosures (afterCalls source names).source (afterCalls source names).known :=
    hsource.symm ▸ hclosures
  refine ⟨similarAnswers_of_supertypes (sameUpToOrder hsource.symm hclosures' (knowsClosures_empty source) name),
    fun hcalm => sameAnswers_of_supertypes
      (Alike.supertypes_eq ?_ hsource.symm hclosures' (knowsClosures_empty source))⟩
  obtain ⟨hlists, hkept⟩ := known_afterCalls source names
  rw [hsource]
  refine ⟨hlists, knowsLists_empty source, fun key hreached htangled => ?_⟩
  -- A list is only kept for this class if some call reached it, and with it a tangled class.
  refine (hkept key fun called hcalled hmet => htangled fun other hmore htangled' => ?_).trans
    Std.HashMap.getElem?_empty.symm
  obtain ⟨query, hquery, rfl⟩ := List.mem_map.1 (howners hcalled)
  exact hcalm query hquery ⟨other, hmet.trans hmore, hreached.trans hmore, htangled'⟩

/-! ## An example -/

section Example

/-- A class with the interfaces `X` and `W`. -/
def firstKnotBytes : Bytes :=
  [0xCA, 0xFE, 0xBA, 0xBE, 0, 0, 0, 52, 0, 7, 1, 0, 1, 0x44, 7, 0, 1, 1, 0, 1, 0x58, 7, 0, 3, 1, 0, 1, 0x57, 7, 0, 5,
    0, 0x21, 0, 2, 0, 0, 0, 2, 0, 4, 0, 6, 0, 0, 0, 0, 0, 0]

/-- A class with the interfaces `D` and `Z`. -/
def secondKnotBytes : Bytes :=
  [0xCA, 0xFE, 0xBA, 0xBE, 0, 0, 0, 52, 0, 7, 1, 0, 1, 0x58, 7, 0, 1, 1, 0, 1, 0x44, 7, 0, 3, 1, 0, 1, 0x5A, 7, 0, 5,
    0, 0x21, 0, 2, 0, 0, 0, 2, 0, 4, 0, 6, 0, 0, 0, 0, 0, 0]

/-- A class without supertypes. -/
def plainBytes : Bytes :=
  [0xCA, 0xFE, 0xBA, 0xBE, 0, 0, 0, 52, 0, 3, 1, 0, 1, 0x57, 7, 0, 1, 0, 0x21, 0, 2, 0, 0, 0, 0, 0, 0, 0, 0, 0, 0]

/-- The classes `D` and `X` name each other as interfaces. -/
def knotSource : ClassSource := .ofList [("D", firstKnotBytes), ("X", secondKnotBytes), ("W", plainBytes)]

def knotCosts : CostTable := (CostTable.empty.insert "W/run" ⟨1, false⟩).insert "Z/run" ⟨2, false⟩

theorem directSupertypes_knotSource : knotSource.directSupertypes "D" = .ok ["X", "W"] ∧
    knotSource.directSupertypes "X" = .ok ["D", "Z"] ∧ knotSource.directSupertypes "W" = .ok [] ∧
    knotSource.directSupertypes "Z" = .error (.load (.noClass "Z")) := by
  refine ⟨?_, ?_, ?_, ?_⟩ <;> with_unfolding_all rfl

theorem gather_nil : gather source way [] seen cutAt known = (⟨seen.reverse.eraseDups, cutAt⟩, known) := by
  rw [gather, distinct_eq]

theorem gather_cons {rest : List String} (hfirst : inherited source way name known = first) :
    gather source way (name :: rest) seen cutAt known =
      gather source way rest (first.1.supertypes.reverse ++ name :: seen) (lowest cutAt first.1.cutAt) first.2 := by
  rw [gather, hfirst]

theorem inherited_plain (hnew : known["W"]? = none) (hfresh : way.contains "W" = false) :
    inherited knotSource way "W" known = (⟨[], none⟩, Hierarchy.keep known "W" []) := by
  obtain ⟨-, hinherited⟩ | ⟨hcut, -⟩ :=
    inherited_of_direct hnew hfresh directSupertypes_knotSource.2.2.1 gather_nil
  · exact hinherited
  · exact absurd (fun place hplace => nomatch hplace) hcut

def plainKnown : Std.HashMap String (List String) := Hierarchy.keep ∅ "W" []

def firstKnown : Std.HashMap String (List String) := Hierarchy.keep plainKnown "D" ["X", "D", "Z", "W"]

theorem getElem?_firstKnown :
    firstKnown["D"]? = some ["X", "D", "Z", "W"] ∧ firstKnown["X"]? = none ∧ firstKnown["Z"]? = none := by
  refine ⟨?_, ?_, ?_⟩ <;>
    simp only [firstKnown, plainKnown, Hierarchy.keep, Std.HashMap.getElem?_insertIfNew] <;> simp

/-- The search from `D` enters `X`, which is cut short at `D`. -/
theorem gather_first :
    gather knotSource ["D"] ["X", "W"] [] none ∅ = (⟨["X", "D", "Z", "W"], some 0⟩, plainKnown) := by
  obtain ⟨-, hdirect, -, hmissing⟩ := directSupertypes_knotSource
  have hinner : gather knotSource ["X", "D"] ["D", "Z"] [] none ∅ = (⟨["D", "Z"], some 0⟩, ∅) := by
    rw [gather_cons (inherited_of_entered (by simp) (by decide)),
      gather_cons (inherited_of_unavailable (by simp) (by decide) hmissing), gather_nil]
    rfl
  obtain ⟨hwhole, -⟩ | ⟨-, hupper⟩ := inherited_of_direct (by simp) (by decide) hdirect hinner
  · exact absurd (hwhole 0 rfl) (by decide)
  · rw [gather_cons hupper, gather_cons (inherited_plain (by simp) (by decide)), gather_nil]
    rfl

/-- The search from `X` enters `D`, which is cut short at `X`. -/
theorem gather_second :
    gather knotSource ["X"] ["D", "Z"] [] none ∅ = (⟨["D", "X", "W", "Z"], some 0⟩, plainKnown) := by
  obtain ⟨hdirect, -, -, hmissing⟩ := directSupertypes_knotSource
  have hinner : gather knotSource ["D", "X"] ["X", "W"] [] none ∅ = (⟨["X", "W"], some 0⟩, plainKnown) := by
    rw [gather_cons (inherited_of_entered (by simp) (by decide)),
      gather_cons (inherited_plain (by simp) (by decide)), gather_nil]
    rfl
  obtain ⟨hwhole, -⟩ | ⟨-, hupper⟩ := inherited_of_direct (by simp) (by decide) hdirect hinner
  · exact absurd (hwhole 0 rfl) (by decide)
  · have hnew : plainKnown["Z"]? = none := by simp [plainKnown, Hierarchy.keep]
    rw [gather_cons hupper, gather_cons (inherited_of_unavailable hnew (by decide) hmissing), gather_nil]
    rfl

/-- It takes the whole list of `D` if there is one. -/
theorem gather_second_of_firstKnown :
    gather knotSource ["X"] ["D", "Z"] [] none firstKnown = (⟨["D", "X", "Z", "W"], none⟩, firstKnown) := by
  obtain ⟨hfirst, -, hnew⟩ := getElem?_firstKnown
  have hmissing := directSupertypes_knotSource.2.2.2
  rw [gather_cons (inherited_of_known hfirst), gather_cons (inherited_of_unavailable hnew (by decide) hmissing),
    gather_nil]
  rfl

theorem afterQueries_first : afterQueries knotSource [.supertypes "D"] = ⟨knotSource, firstKnown⟩ := by
  have hrun := supertypes_of_direct (h := ofSource knotSource) (by simp [ofSource])
    directSupertypes_knotSource.1 gather_first
  exact congrArg Prod.snd hrun

/-- After a call for `D`, the supertypes of `X` have another order, and one of its methods has another cost. -/
theorem order_depends_on_history :
    ((afterQueries knotSource [.supertypes "D"]).supertypes "X").1 = .ok ["D", "X", "Z", "W"] ∧
      ((ofSource knotSource).supertypes "X").1 = .ok ["D", "X", "W", "Z"] ∧
      (knotCosts.lookup (afterQueries knotSource [.supertypes "D"]) "X" "run").1 = (some ⟨2, false⟩, none) ∧
      (knotCosts.lookup (ofSource knotSource) "X" "run").1 = (some ⟨1, false⟩, none) := by
  have hdirect := directSupertypes_knotSource.2.1
  have hlate : ((afterQueries knotSource [.supertypes "D"]).supertypes "X").1 = .ok ["D", "X", "Z", "W"] := by
    rw [afterQueries_first, supertypes_of_direct getElem?_firstKnown.2.1 hdirect gather_second_of_firstKnown]
  have hfresh : ((ofSource knotSource).supertypes "X").1 = .ok ["D", "X", "W", "Z"] := by
    rw [supertypes_of_direct (by simp [ofSource]) hdirect gather_second]
  refine ⟨hlate, hfresh, ?_, ?_⟩
  · rw [lookup_fst_of_supertypes, hlate]
    simp [knotCosts, CostTable.empty, CostTable.insert, CostTable.get?, CostTable.key, Std.HashMap.getElem?_insert]
  · rw [lookup_fst_of_supertypes, hfresh]
    simp [knotCosts, CostTable.empty, CostTable.insert, CostTable.get?, CostTable.key, Std.HashMap.getElem?_insert]

/-- Calls for `W` and its method leave the answers for `X` as they are. -/
theorem answers_after_plain :
    (∀ query ∈ [Query.supertypes "W", .cost knotCosts "W" "stop"], ¬ query.Disturbs knotSource "X") ∧
      SameAnswers (afterQueries knotSource [.supertypes "W", .cost knotCosts "W" "stop"]) (ofSource knotSource)
        "X" := by
  have hstep : ∀ other, ¬ knotSource.Step "W" other := fun other hstep =>
    nomatch (ClassSource.step_iff directSupertypes_knotSource.2.2.1).1 hstep
  have hcalm : ∀ query ∈ [Query.supertypes "W", .cost knotCosts "W" "stop"], ¬ query.Disturbs knotSource "X" := by
    rintro query hquery ⟨other, hreached, -, up, -, htangled, -⟩
    have howner : query.owner = "W" := by
      rcases List.mem_pair.1 hquery with rfl | rfl <;> rfl
    rw [howner] at hreached
    obtain rfl : "W" = other := by
      cases hreached.cases_head with
      | inl heq => exact heq
      | inr hmore => exact absurd hmore.choose_spec.1 (hstep _)
    obtain ⟨next, hnext, -⟩ := TransGen.head'_iff.1 htangled
    exact hstep next hnext
  exact ⟨hcalm, (answers_afterQueries knotSource _ "X").2 hcalm⟩

end Example

end Hierarchy

end ClassSandbox
