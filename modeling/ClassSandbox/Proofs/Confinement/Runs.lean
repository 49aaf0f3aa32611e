import ClassSandbox.Confinement
import ClassSandbox.Proofs.Outcome

/-!
# Runs of confinements

The outcome of a confinement, from an editor and from findings, is taken step by step: there is an equation
for each way to build one. `Gives x editor a later` says that the confinement `x` may succeed, with the value
`a`, and lead from one editor to another, and the lemmas about it take such a run apart. Along a list the items
make their progress one after another (`Progress.forM`, `Progress.mapM`).
-/

namespace ClassSandbox.Confinement

variable {α β : Type}

/-! ## Equations -/

theorem outcome_run_pure (a : α) (editor : PoolEditor) (findings : Findings) :
    outcome ((pure a : Confinement α).run editor) findings = (.ok (a, editor), findings) := rfl

theorem outcome_run_get (editor : PoolEditor) (findings : Findings) :
    outcome ((get : Confinement PoolEditor).run editor) findings = (.ok (editor, editor), findings) := rfl

theorem outcome_run_modify (change : PoolEditor → PoolEditor) (editor : PoolEditor) (findings : Findings) :
    outcome ((modify change : Confinement PUnit).run editor) findings =
      (.ok (⟨⟩, change editor), findings) := rfl

theorem outcome_run_bind (x : Confinement α) (next : α → Confinement β) (editor : PoolEditor)
    (findings : Findings) :
    outcome ((x >>= next).run editor) findings =
      match outcome (x.run editor) findings with
      | (.ok (a, later), after) => outcome ((next a).run later) after
      | (.error fault, after) => (.error fault, after) := by
  rw [StateT.run_bind, outcome_bind]
  rcases outcome (x.run editor) findings with ⟨fault | ⟨a, later⟩, after⟩ <;> rfl

theorem outcome_run_lift (x : Resolution α) (editor : PoolEditor) (findings : Findings) :
    outcome ((liftM x : Confinement α).run editor) findings =
      match outcome x findings with
      | (.ok a, after) => (.ok (a, editor), after)
      | (.error fault, after) => (.error fault, after) := by
  change outcome (x >>= fun a => pure (a, editor)) findings = _
  rw [outcome_bind]
  rcases outcome x findings with ⟨fault | a, after⟩ <;> rfl

theorem outcome_run_onPool (action : PoolAction α) (editor : PoolEditor) (findings : Findings) :
    outcome ((onPool action).run editor) findings =
      match outcome action editor.pool with
      | (.ok a, pool) => (.ok (a, ⟨pool, editor.settled⟩), findings)
      | (.error fault, _) => (.error (.classFile fault), findings) := by
  rcases hrun : outcome action editor.pool with ⟨fault | a, pool⟩ <;>
    simp only [StateT.run, onPool, outcome] at hrun ⊢ <;> rw [hrun] <;> rfl

theorem outcome_run_fromPool (read : ConstantPool → Except ClassFault α) (editor : PoolEditor)
    (findings : Findings) :
    outcome ((fromPool read).run editor) findings =
      match read editor.pool with
      | .ok a => (.ok (a, editor), findings)
      | .error fault => (.error (.classFile fault), findings) := by
  rw [fromPool, outcome_run_bind, outcome_run_get]
  dsimp only
  cases read editor.pool <;> rfl

/-! ## Runs that succeed -/

/-- From some findings, the confinement succeeds with a value, and changes the editor like this. -/
def Gives (x : Confinement α) (editor : PoolEditor) (a : α) (later : PoolEditor) : Prop :=
  ∃ before after, outcome (x.run editor) before = (.ok (a, later), after)

variable {editor later : PoolEditor} {a b : α}

theorem gives_pure (h : Gives (pure a) editor b later) : a = b ∧ editor = later := by
  obtain ⟨before, after, h⟩ := h
  cases h
  exact ⟨rfl, rfl⟩

theorem gives_bind {x : Confinement β} {next : β → Confinement α} (h : Gives (x >>= next) editor a later) :
    ∃ b middle, Gives x editor b middle ∧ Gives (next b) middle a later := by
  obtain ⟨before, after, h⟩ := h
  rw [outcome_run_bind] at h
  split at h
  · rename_i b middle between hx
    exact ⟨b, middle, ⟨before, between, hx⟩, ⟨between, after, h⟩⟩
  · cases h

theorem gives_get {found : PoolEditor} (h : Gives get editor found later) :
    editor = found ∧ editor = later := by
  obtain ⟨before, after, h⟩ := h
  cases h
  exact ⟨rfl, rfl⟩

theorem gives_modify {change : PoolEditor → PoolEditor} {u : Unit} (h : Gives (modify change) editor u later) :
    change editor = later := by
  obtain ⟨before, after, h⟩ := h
  cases h
  rfl

/-- Resolution leaves the pool alone. -/
theorem gives_lift {x : Resolution α} (h : Gives (liftM x) editor a later) : editor = later ∧ MayGive x a := by
  obtain ⟨before, after, h⟩ := h
  rw [outcome_run_lift] at h
  split at h
  · rename_i hx
    cases h
    exact ⟨rfl, before, after, hx⟩
  · cases h

theorem gives_onPool {action : PoolAction α} (h : Gives (onPool action) editor a later) :
    outcome action editor.pool = (.ok a, later.pool) ∧ later.settled = editor.settled := by
  obtain ⟨before, after, h⟩ := h
  rw [outcome_run_onPool] at h
  split at h
  · rename_i haction
    cases h
    exact ⟨haction, rfl⟩
  · cases h

theorem gives_fromPool {read : ConstantPool → Except ClassFault α} (h : Gives (fromPool read) editor a later) :
    read editor.pool = .ok a ∧ editor = later := by
  obtain ⟨before, after, h⟩ := h
  rw [outcome_run_fromPool] at h
  split at h
  · rename_i hread
    cases h
    exact ⟨hread, rfl⟩
  · cases h

/-! ## Walks along lists -/

/-- What runs do to an editor that is ready for them adds up, and leaves the editor ready. -/
structure Progress (Ready : PoolEditor → Prop) (Moves : PoolEditor → PoolEditor → Prop) : Prop where
  refl {editor : PoolEditor} : Ready editor → Moves editor editor
  trans {editor later last : PoolEditor} : Moves editor later → Moves later last → Moves editor last
  ready {editor later : PoolEditor} : Ready editor → Moves editor later → Ready later

namespace Progress

variable {Ready Also : PoolEditor → Prop} {Moves : PoolEditor → PoolEditor → Prop} (h : Progress Ready Moves)

include h

theorem and (halso : ∀ {editor later : PoolEditor}, Ready editor → Also editor → Moves editor later → Also later) :
    Progress (fun editor => Ready editor ∧ Also editor) Moves where
  refl hready := h.refl hready.1
  trans := h.trans
  ready hready hmoves := ⟨h.ready hready.1 hmoves, halso hready.1 hready.2 hmoves⟩

theorem forM {f : α → Confinement PUnit} {items : List α}
    (hstep : ∀ item ∈ items, ∀ {editor later : PoolEditor} {u : PUnit}, Ready editor →
      Gives (f item) editor u later → Moves editor later)
    {u : PUnit} (hready : Ready editor) (hrun : Gives (items.forM f) editor u later) : Moves editor later := by
  induction items generalizing editor with
  | nil =>
    obtain ⟨-, rfl⟩ := gives_pure hrun
    exact h.refl hready
  | cons item rest ih =>
    obtain ⟨_, middle, hfirst, hrest⟩ := gives_bind hrun
    have hmoves := hstep item List.mem_cons_self hready hfirst
    exact h.trans hmoves (ih (fun other hmem => hstep other (List.mem_cons_of_mem _ hmem))
      (h.ready hready hmoves) hrest)

/-- What relates an item to its result may depend on the editor, if it stays so. -/
theorem mapM {f : α → Confinement β} {Related : PoolEditor → α → β → Prop}
    (hstays : ∀ {editor later : PoolEditor} {a : α} {b : β}, Moves editor later → Related editor a b →
      Related later a b)
    (hstep : ∀ {editor later : PoolEditor} {a : α} {b : β}, Ready editor → Gives (f a) editor b later →
      Moves editor later ∧ Related later a b)
    {items : List α} {results : List β} (hready : Ready editor) (hrun : Gives (items.mapM f) editor results later) :
    Moves editor later ∧ List.Forall₂ (Related later) items results := by
  induction items generalizing editor results with
  | nil =>
    obtain ⟨rfl, rfl⟩ := gives_pure hrun
    exact ⟨h.refl hready, .nil⟩
  | cons item rest ih =>
    rw [List.mapM_cons] at hrun
    obtain ⟨first, middle, hfirst, hrun⟩ := gives_bind hrun
    obtain ⟨others, _, hothers, hrun⟩ := gives_bind hrun
    obtain ⟨rfl, rfl⟩ := gives_pure hrun
    obtain ⟨hmoves, hrelated⟩ := hstep hready hfirst
    obtain ⟨hmore, hrest⟩ := ih (h.ready hready hmoves) hothers
    exact ⟨h.trans hmoves hmore, .cons (hstays hmore hrelated) hrest⟩

end Progress

end ClassSandbox.Confinement
