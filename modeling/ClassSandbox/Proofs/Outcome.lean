import Mathlib.Data.List.Forall2

/-!
# Outcomes of actions that may fail half way

A sequence in `Except` succeeds when its parts do (`except_bind_eq_ok_iff`, `forall₂_of_mapM`). `Resolution`
and `PoolAction` also have a state: both are `ExceptT ε (StateM σ)`. The `outcome` of such an action in a state
is a value or a fault, and in either case the state that it leaves. It is taken step by step in the same way
(`outcome_bind_eq_ok_iff`). `Keeps x property` says that the action leaves a property of the state intact. Often
only the value matters, and not the states: `MayGive x a` says that the action may succeed with it
(`mayGive_bind`, `forall₂_of_mayGive_mapM`).
-/

namespace ClassSandbox

variable {ε σ α β : Type}

/-! ## Values and faults -/

theorem except_bind_eq_ok_iff {x : Except ε α} {next : α → Except ε β} {b : β} :
    x >>= next = .ok b ↔ ∃ a, x = .ok a ∧ next a = .ok b := by
  rcases x with fault | a
  · exact ⟨fun h => (nomatch h), fun ⟨_, hx, _⟩ => (nomatch hx)⟩
  · exact ⟨fun h => ⟨a, rfl, h⟩, fun ⟨_, hx, h⟩ => by cases hx; exact h⟩

theorem except_map_eq_ok_iff {f : α → β} {x : Except ε α} {b : β} :
    x.map f = .ok b ↔ ∃ a, x = .ok a ∧ f a = b := by
  cases x <;> simp [Except.map]

theorem forall₂_of_mapM {f : α → Except ε β} {items : List α} {results : List β}
    (h : items.mapM f = .ok results) : List.Forall₂ (fun a b => f a = .ok b) items results := by
  induction items generalizing results with
  | nil =>
    cases h
    exact .nil
  | cons a items ih =>
    rw [List.mapM_cons] at h
    obtain ⟨b, ha, h⟩ := except_bind_eq_ok_iff.1 h
    obtain ⟨rest, hrest, h⟩ := except_bind_eq_ok_iff.1 h
    cases h
    exact .cons ha (ih hrest)

theorem mapM_of_forall₂ {f g : α → Except ε β} {items items' : List α} {results : List β}
    (hsame : List.Forall₂ (fun a a' => ∀ b, f a = .ok b → g a' = .ok b) items items')
    (h : items.mapM f = .ok results) : items'.mapM g = .ok results := by
  induction hsame generalizing results with
  | nil => exact h
  | cons hfirst _ ih =>
    rw [List.mapM_cons] at h ⊢
    obtain ⟨b, hb, h⟩ := except_bind_eq_ok_iff.1 h
    obtain ⟨others, hothers, h⟩ := except_bind_eq_ok_iff.1 h
    exact except_bind_eq_ok_iff.2 ⟨b, hfirst b hb, except_bind_eq_ok_iff.2 ⟨others, ih hothers, h⟩⟩

/-- A walk along a list succeeds if it may at each item. -/
theorem exists_mapM_iff {f : α → Except ε β} {items : List α} :
    (∃ results, items.mapM f = .ok results) ↔ ∀ a ∈ items, ∃ b, f a = .ok b := by
  induction items with
  | nil => exact ⟨fun _ _ hmem => (nomatch hmem), fun _ => ⟨[], rfl⟩⟩
  | cons a items ih =>
    rw [List.forall_mem_cons, ← ih, List.mapM_cons]
    constructor
    · rintro ⟨results, h⟩
      obtain ⟨b, ha, h⟩ := except_bind_eq_ok_iff.1 h
      obtain ⟨rest, hrest, -⟩ := except_bind_eq_ok_iff.1 h
      exact ⟨⟨b, ha⟩, rest, hrest⟩
    · rintro ⟨⟨b, ha⟩, rest, hrest⟩
      exact ⟨b :: rest, by rw [ha, hrest]; rfl⟩

/-! ## Actions -/

/-- What an action gives in a state, and the state that it leaves. -/
def outcome (x : ExceptT ε (StateM σ) α) (s : σ) : Except ε α × σ := x.run.run s

theorem outcome_pure (a : α) (s : σ) : outcome (pure a : ExceptT ε (StateM σ) α) s = (.ok a, s) := rfl

theorem outcome_throw (fault : ε) (s : σ) :
    outcome (throw fault : ExceptT ε (StateM σ) α) s = (.error fault, s) := rfl

theorem outcome_get (s : σ) : outcome (get : ExceptT ε (StateM σ) σ) s = (.ok s, s) := rfl

theorem outcome_modify (f : σ → σ) (s : σ) :
    outcome (modify f : ExceptT ε (StateM σ) PUnit) s = (.ok ⟨⟩, f s) := rfl

theorem outcome_bind (x : ExceptT ε (StateM σ) α) (next : α → ExceptT ε (StateM σ) β) (s : σ) :
    outcome (x >>= next) s =
      match outcome x s with
      | (.ok a, t) => outcome (next a) t
      | (.error fault, t) => (.error fault, t) := by
  change (match x s with
    | (a, t) => (ExceptT.bindCont next a) t) = _
  rcases hx : x s with ⟨_ | _, t⟩ <;> simp only [outcome, ExceptT.run, StateT.run, hx] <;> rfl

theorem outcome_map (f : α → β) (x : ExceptT ε (StateM σ) α) (s : σ) :
    outcome (f <$> x) s = (f <$> (outcome x s).1, (outcome x s).2) := by
  rw [← bind_pure_comp, outcome_bind]
  rcases outcome x s with ⟨_ | _, _⟩ <;> rfl

/-- A sequence succeeds when both of its parts do. -/
theorem outcome_bind_eq_ok_iff {x : ExceptT ε (StateM σ) α} {next : α → ExceptT ε (StateM σ) β} {s u : σ}
    {b : β} :
    outcome (x >>= next) s = (.ok b, u) ↔
      ∃ a t, outcome x s = (.ok a, t) ∧ outcome (next a) t = (.ok b, u) := by
  rw [outcome_bind]
  rcases outcome x s with ⟨_ | a, t⟩
  · simp
  · exact ⟨fun h => ⟨a, t, rfl, h⟩, fun ⟨_, _, hx, h⟩ => by cases hx; exact h⟩

/-- A sequence fails when its first part does, or else the second one. -/
theorem outcome_bind_eq_error_iff {x : ExceptT ε (StateM σ) α} {next : α → ExceptT ε (StateM σ) β} {s u : σ}
    {fault : ε} :
    outcome (x >>= next) s = (.error fault, u) ↔
      outcome x s = (.error fault, u) ∨
        ∃ a t, outcome x s = (.ok a, t) ∧ outcome (next a) t = (.error fault, u) := by
  rw [outcome_bind]
  rcases outcome x s with ⟨_ | a, t⟩
  · simp
  · simp

/-! ## Invariants -/

/-- An action leaves a property of the state intact, whether it succeeds or not. -/
def Keeps (x : ExceptT ε (StateM σ) α) (property : σ → Prop) : Prop :=
  ∀ s, property s → property (outcome x s).2

variable {property : σ → Prop}

theorem keeps_pure (a : α) : Keeps (pure a : ExceptT ε (StateM σ) α) property := fun _ h => h

theorem keeps_throw (fault : ε) : Keeps (throw fault : ExceptT ε (StateM σ) α) property := fun _ h => h

theorem keeps_get : Keeps (get : ExceptT ε (StateM σ) σ) property := fun _ h => h

theorem keeps_modify {f : σ → σ} (h : ∀ s, property s → property (f s)) :
    Keeps (modify f : ExceptT ε (StateM σ) PUnit) property := h

theorem Keeps.bind {x : ExceptT ε (StateM σ) α} {next : α → ExceptT ε (StateM σ) β} (hx : Keeps x property)
    (hnext : ∀ a, Keeps (next a) property) : Keeps (x >>= next) property := by
  intro s hs
  have hafter := hx s hs
  rw [outcome_bind]
  rcases hrun : outcome x s with ⟨_ | a, t⟩ <;> rw [hrun] at hafter
  · exact hafter
  · exact hnext a t hafter

/-! ## Actions that may succeed -/

/-- The action succeeds with a value in some state. -/
def MayGive (x : ExceptT ε (StateM σ) α) (a : α) : Prop :=
  ∃ before after, outcome x before = (.ok a, after)

theorem mayGive_pure {a b : α} (h : MayGive (pure a : ExceptT ε (StateM σ) α) b) : a = b := by
  obtain ⟨before, after, h⟩ := h
  cases h
  rfl

theorem mayGive_bind {x : ExceptT ε (StateM σ) α} {next : α → ExceptT ε (StateM σ) β} {b : β}
    (h : MayGive (x >>= next) b) : ∃ a, MayGive x a ∧ MayGive (next a) b := by
  obtain ⟨before, after, h⟩ := h
  obtain ⟨a, middle, hx, h⟩ := outcome_bind_eq_ok_iff.1 h
  exact ⟨a, ⟨before, middle, hx⟩, ⟨middle, after, h⟩⟩

/-- A walk along a list may only succeed if it may at each item. -/
theorem forall₂_of_mayGive_mapM {f : α → ExceptT ε (StateM σ) β} {items : List α} {results : List β}
    (h : MayGive (items.mapM f) results) : List.Forall₂ (fun a b => MayGive (f a) b) items results := by
  induction items generalizing results with
  | nil =>
    obtain rfl := mayGive_pure h
    exact .nil
  | cons a items ih =>
    rw [List.mapM_cons] at h
    obtain ⟨b, ha, h⟩ := mayGive_bind h
    obtain ⟨rest, hrest, h⟩ := mayGive_bind h
    obtain rfl := mayGive_pure h
    exact .cons ha (ih hrest)

section Chains

variable {ε' γ : Type} {f : α → Except ε' β} {g : β → ExceptT ε (StateM σ) γ}

/-- Each result of two walks after one another comes from an item by way of a value. -/
theorem exists_of_mem_zip_of_mapM {items : List α} {values : List β} {results : List γ}
    (hvalues : items.mapM f = .ok values) (hresults : MayGive (values.mapM g) results) :
    ∀ entry ∈ items.zip results, ∃ value, f entry.1 = .ok value ∧ MayGive (g value) entry.2 := by
  replace hvalues := forall₂_of_mapM hvalues
  replace hresults := forall₂_of_mayGive_mapM hresults
  induction hvalues generalizing results with
  | nil => exact fun _ hmem => (nomatch hmem)
  | cons hfirst _ ih =>
    cases hresults with
    | cons hresult hrest =>
      intro entry hmem
      rw [List.zip_cons_cons, List.mem_cons] at hmem
      rcases hmem with rfl | hmem
      · exact ⟨_, hfirst, hresult⟩
      · exact ih hrest entry hmem

theorem exists_of_mapM_some {item : α} {value? : Option β} {result : γ}
    (hvalue : (some item).mapM f = .ok value?) (hresult : MayGive (value?.mapM g) (some result)) :
    ∃ value, f item = .ok value ∧ MayGive (g value) result := by
  rw [Option.mapM_some, ← bind_pure_comp] at hvalue
  obtain ⟨value, hitem, h⟩ := except_bind_eq_ok_iff.1 hvalue
  cases h
  rw [Option.mapM_some, ← bind_pure_comp] at hresult
  obtain ⟨found, hfound, h⟩ := mayGive_bind hresult
  cases mayGive_pure h
  exact ⟨value, hitem, hfound⟩

end Chains

end ClassSandbox
