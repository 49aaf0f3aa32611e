import ClassSandbox.Proofs.ConstantPool.RoundTrip
import ClassSandbox.Proofs.Simulation

/-!
# What failed operations leave behind

A constant is appended, or else nothing changes. So an operation of one step that fails leaves the pool alone. One of
two steps may fail at the second one, and it keeps what the first one did: afterwards the pool is as if it had only been
asked for the text (`failureTraces`).

A replacement that fails leaves the constants as they are, but not what is found: no class and no pair is found at the
index any more, and the new constant is, even if it was never stored. A computation can tell by the constants that are
found elsewhere than before, and if it avoids these, by nothing (`Avoids.sameView`).
-/

namespace ClassSandbox

namespace PoolAction

open ConstantPool

variable {α β : Type} {pool after : ConstantPool} {index : ConstantIndex} {constant : Constant} {fault : ClassFault}

/-! ## Computations that avoid some constants -/

/-- The result of an action as a value, so that a computation goes on after a failure. -/
def attempt (action : PoolAction α) : PoolAction (Except ClassFault α) := ExceptT.lift action.run

theorem outcome_attempt (action : PoolAction α) (pool : ConstantPool) :
    outcome (attempt action) pool = (.ok (outcome action pool).1, (outcome action pool).2) := rfl

/-- The computations of operations on a pool that search for other constants than those that they avoid. They may look
at the constants that there are, and go on after failures. -/
inductive Avoids (avoided : Constant → Prop) : {α : Type} → PoolAction α → Prop where
  | pure {α : Type} (a : α) : Avoids avoided (pure a)
  | inspect {α : Type} (f : ConstantPool → α)
      (hf : ∀ {pool pool'}, pool.constants = pool'.constants → f pool = f pool') : Avoids avoided (do return f (← get))
  | append (constant : Constant) : Avoids avoided (append constant)
  | text {content : String} (h : ¬avoided (.utf8 content)) : Avoids avoided (text content)
  | classRef {name : String} (hname : ¬avoided (.utf8 name)) (hclass : ∀ text, ¬avoided (.classRef text)) :
      Avoids avoided (classRef name)
  | nameAndType {name descriptor : ConstantIndex} (h : ¬avoided (.nameAndType name descriptor)) :
      Avoids avoided (nameAndType name descriptor)
  | replace (index : ConstantIndex) (constant : Constant) : Avoids avoided (replace index constant)
  | write {α : Type} {kind : AttributeKind α} (contents : α) (h : ¬avoided (.utf8 kind.name)) :
      Avoids avoided (kind.write contents)
  | attempt {α : Type} {action : PoolAction α} (h : Avoids avoided action) : Avoids avoided (attempt action)
  | bind {α β : Type} {action : PoolAction α} {next : α → PoolAction β} (h : Avoids avoided action)
      (hnext : ∀ a, Avoids avoided (next a)) : Avoids avoided (action >>= next)

section Avoids

variable {avoided : Constant → Prop}

/-- Looking up an index needs no search, and writing the pool does not, either. -/
theorem avoids_lookups (index : ConstantIndex) :
    Avoids avoided (do return (← get).constantAt index) ∧ Avoids avoided (do return (← get).textAt index) ∧
      Avoids avoided (do return (← get).classNameAt index) ∧ Avoids avoided (do return (← get).encode) := by
  refine ⟨.inspect (constantAt · index) fun h => ?_, .inspect (textAt · index) fun h => ?_,
    .inspect (classNameAt · index) fun h => ?_, .inspect encode fun h => ?_⟩ <;>
  simp only [constantAt, textAt, classNameAt, encode, h]

/-- The constants, and where those are found that are not avoided. -/
def viewBeside (avoided : Constant → Prop) (pool : ConstantPool) :
    OffsetVector Constant × ({constant : Constant // ¬avoided constant} → Option ConstantIndex) :=
  (pool.constants, fun constant => pool.find? constant)

theorem viewBeside_eq_iff {pool' : ConstantPool} :
    viewBeside avoided pool = viewBeside avoided pool' ↔
      pool.constants = pool'.constants ∧ ∀ constant, ¬avoided constant → pool.find? constant = pool'.find? constant := by
  simp [viewBeside, funext_iff]

/-- The same results and the same view, from pools of the same view. -/
def sameView (avoided : Constant → Prop) : Simulation PoolAction PoolAction := .through (viewBeside avoided)

theorem sameView_append (constant : Constant) : (sameView avoided).Rel (append constant) (append constant) := by
  intro pool pool' hsame
  obtain ⟨hconstants, hfound⟩ := viewBeside_eq_iff.1 hsame
  have hfault : pool.appendFault? constant = pool'.appendFault? constant := by
    simp only [appendFault?, hconstants]
  rw [outcome_append, outcome_append, hfault]
  cases pool'.appendFault? constant with
  | some fault => exact ⟨rfl, hsame⟩
  | none =>
    refine ⟨by rw [hconstants], viewBeside_eq_iff.2 ⟨?_, fun other hother => ?_⟩⟩
    · rw [constants_store, constants_store, hconstants]
    · rw [find?_store, find?_store, hconstants, hfound other hother]

theorem sameView_replace (index : ConstantIndex) (constant : Constant) :
    (sameView avoided).Rel (replace index constant) (replace index constant) := by
  intro pool pool' hsame
  obtain ⟨hconstants, hfound⟩ := viewBeside_eq_iff.1 hsame
  have hmaps (other : Constant) (hother : ¬avoided other) :
      ((pool.forget index).remember index constant).find? other =
        ((pool'.forget index).remember index constant).find? other := by
    rw [find?_remember_eq, find?_remember_eq, find?_forget_eq, find?_forget_eq, findBeside?_congr (hfound other hother)]
  have hkept (pool : ConstantPool) : ((pool.forget index).remember index constant).constants = pool.constants :=
    constants_remember _ _ _
  have hfailed : viewBeside avoided ((pool.forget index).remember index constant) =
      viewBeside avoided ((pool'.forget index).remember index constant) :=
    viewBeside_eq_iff.2 ⟨by rw [hkept, hkept, hconstants], hmaps⟩
  rw [outcome_replace, outcome_replace, hconstants]
  split
  · refine ⟨rfl, viewBeside_eq_iff.2 ⟨?_, fun other hother => ?_⟩⟩
    · exact congrArg (fun constants => constants.set index.toNat constant) hconstants
    · rw [find?_exchange_eq, find?_exchange_eq, hmaps other hother]
  · exact ⟨rfl, hfailed⟩
  · exact ⟨rfl, hfailed⟩

theorem sameView_intern (h : ¬avoided constant) : (sameView avoided).Rel (intern constant) (intern constant) := by
  intro pool pool' hsame
  rw [outcome_intern, outcome_intern, (viewBeside_eq_iff.1 hsame).2 constant h]
  cases pool'.find? constant with
  | some index => exact ⟨rfl, hsame⟩
  | none => exact sameView_append constant pool pool' hsame

/-- What a computation gives, and makes of the pool, does not depend on where the constants are found that it
avoids. -/
theorem Avoids.sameView {program : PoolAction α} (h : Avoids avoided program) :
    (sameView avoided).Rel program program := by
  induction h with
  | pure a => exact (PoolAction.sameView avoided).pure a
  | inspect f hf => exact fun pool pool' hsame => ⟨congrArg Except.ok (hf (congrArg Prod.fst hsame)), hsame⟩
  | append constant => exact sameView_append constant
  | text h => exact sameView_intern h
  | classRef hname hclass =>
    exact (PoolAction.sameView avoided).bind (sameView_intern hname) fun text => sameView_intern (hclass text)
  | nameAndType h => exact sameView_intern h
  | replace index constant => exact sameView_replace index constant
  | @write _ kind contents h =>
    refine (PoolAction.sameView avoided).bind (sameView_intern h) fun name => ?_
    split
    · exact (PoolAction.sameView avoided).pure _
    · exact fun pool pool' hsame => ⟨rfl, hsame⟩
  | attempt _ ih =>
    intro pool pool' hsame
    obtain ⟨hresult, hafter⟩ := ih pool pool' hsame
    rw [outcome_attempt, outcome_attempt]
    exact ⟨congrArg Except.ok hresult, hafter⟩
  | bind _ _ ih ihnext => exact (PoolAction.sameView avoided).bind ih ihnext

end Avoids

/-! ## Failures -/

theorem append_eq_error (hrun : outcome (append constant) pool = (.error fault, after)) :
    after = pool ∧ pool.appendFault? constant = some fault := by
  rw [outcome_append] at hrun
  split at hrun
  · rename_i hfault
    cases hrun
    exact ⟨rfl, hfault⟩
  · cases hrun

theorem intern_eq_error (hrun : outcome (intern constant) pool = (.error fault, after)) :
    after = pool ∧ pool.appendFault? constant = some fault := by
  rw [outcome_intern] at hrun
  split at hrun
  · cases hrun
  · exact append_eq_error hrun

theorem intern_eq_ok (hrun : outcome (intern constant) pool = (.ok index, after)) :
    after = pool ∨ pool.appendFault? constant = none ∧ after = pool.store constant := by
  rw [outcome_intern] at hrun
  split at hrun
  · cases hrun
    exact .inl rfl
  · rw [outcome_append] at hrun
    split at hrun
    · cases hrun
    · rename_i hfault
      cases hrun
      exact .inr ⟨hfault, rfl⟩

theorem replace_eq_error (hrun : outcome (replace index constant) pool = (.error fault, after)) :
    after = (pool.forget index).remember index constant := by
  rw [outcome_replace] at hrun
  split at hrun
  · cases hrun
  · cases hrun
    rfl
  · cases hrun
    rfl

theorem constants_of_replace_eq_error (hrun : outcome (replace index constant) pool = (.error fault, after)) :
    after.constants = pool.constants := by
  obtain rfl := replace_eq_error hrun
  exact constants_remember _ _ _

theorem nextOffset_of_appendFault? {name : ConstantIndex}
    (hfault : pool.appendFault? (.classRef name) = some fault) : limit ≤ pool.constants.nextOffset := by
  have hwidth : width (Constant.classRef name) = 1 := rfl
  by_contra hlt
  have hroom : pool.constants.nextOffset + 1 ≤ limit := Nat.not_le.1 hlt
  simp [appendFault?, hwidth, hroom] at hfault

end PoolAction

namespace ConstantPool

open PoolAction

/-- What operations leave behind when they fail. -/
structure FailureTraces (pool : ConstantPool) : Prop where
  append {constant : Constant} {fault : ClassFault} {after : ConstantPool} :
    outcome (PoolAction.append constant) pool = (.error fault, after) → after = pool
  text {content : String} {fault : ClassFault} {after : ConstantPool} :
    outcome (PoolAction.text content) pool = (.error fault, after) → after = pool
  nameAndType {name descriptor : ConstantIndex} {fault : ClassFault} {after : ConstantPool} :
    outcome (PoolAction.nameAndType name descriptor) pool = (.error fault, after) → after = pool
  /-- There may be room for the name of a class, but for nothing after it. -/
  classRef {name : String} {fault : ClassFault} {after : ConstantPool} :
    outcome (PoolAction.classRef name) pool = (.error fault, after) →
      after = (outcome (PoolAction.text name) pool).2 ∧
        (after = pool ∨ after = pool.store (.utf8 name) ∧ pool.constants.nextOffset + 1 = limit)
  /-- The name of an attribute is there, if its contents are what is wrong. -/
  write {α : Type} {kind : AttributeKind α} {contents : α} {fault : ClassFault} {after : ConstantPool} :
    outcome (kind.write contents) pool = (.error fault, after) →
      after = (outcome (PoolAction.text kind.name) pool).2 ∧
        (after = pool ∨ after = pool.store (.utf8 kind.name) ∧ ∀ info, kind.encode contents ≠ .ok info)
  /-- No constant changes. What is forgotten at the index stays so, and the constant is found there, unless it is found
  elsewhere. -/
  replace {index : ConstantIndex} {constant : Constant} {fault : ClassFault} {after : ConstantPool} :
    outcome (PoolAction.replace index constant) pool = (.error fault, after) →
      after.constants = pool.constants ∧ after.encode = pool.encode ∧
        (∀ other, after.find? other =
          if other = constant ∧ isFindable constant then some ((pool.findBeside? index other).getD index)
          else pool.findBeside? index other) ∧
        ∀ {α : Type} {program : PoolAction α},
          Avoids (fun other => after.find? other ≠ pool.find? other) program →
            (outcome program after).1 = (outcome program pool).1 ∧
              (outcome program after).2.constants = (outcome program pool).2.constants

theorem failureTraces (pool : ConstantPool) : pool.FailureTraces where
  append hrun := (append_eq_error hrun).1
  text hrun := by
    rw [text_eq_intern] at hrun
    exact (intern_eq_error hrun).1
  nameAndType hrun := by
    rw [nameAndType_eq_intern] at hrun
    exact (intern_eq_error hrun).1
  classRef {name fault after} hrun := by
    rw [classRef_eq_intern] at hrun
    rw [text_eq_intern]
    rcases outcome_bind_eq_error_iff.1 hrun with hname | ⟨index, middle, hname, hclass⟩
    · rw [hname]
      exact ⟨rfl, .inl (intern_eq_error hname).1⟩
    · obtain ⟨rfl, hfault⟩ := intern_eq_error hclass
      rw [hname]
      rcases intern_eq_ok hname with rfl | ⟨hfits, rfl⟩
      · exact ⟨rfl, .inl rfl⟩
      · have hfull := nextOffset_of_appendFault? hfault
        rw [nextOffset_store] at hfull
        exact ⟨rfl, .inr ⟨rfl, Nat.le_antisymm (fits_of_appendFault? hfits) hfull⟩⟩
  write {α kind contents fault after} hrun := by
    rw [AttributeKind.write] at hrun
    rcases outcome_bind_eq_error_iff.1 hrun with hname | ⟨index, middle, hname, hcontents⟩
    · rw [hname]
      rw [text_eq_intern] at hname
      exact ⟨rfl, .inl (intern_eq_error hname).1⟩
    · rw [hname]
      split at hcontents
      · cases hcontents
      · rename_i hencode
        cases hcontents
        rw [text_eq_intern] at hname
        have hcontents (info : Bytes) : kind.encode contents ≠ .ok info := by
          intro h
          cases hencode.symm.trans h
        rcases intern_eq_ok hname with rfl | ⟨-, rfl⟩
        · exact ⟨rfl, .inl rfl⟩
        · exact ⟨rfl, .inr ⟨rfl, hcontents⟩⟩
  replace {index constant fault after} hrun := by
    have hsame := constants_of_replace_eq_error hrun
    obtain rfl := replace_eq_error hrun
    refine ⟨hsame, by rw [encode, encode, hsame], fun other => ?_, fun hprogram => ?_⟩
    · rw [find?_remember_eq, find?_forget_eq]
    · have hview := viewBeside_eq_iff.2 ⟨hsame, fun other hother => not_not.1 hother⟩
      exact (hprogram.sameView _ _ hview).imp_right fun hafter => (viewBeside_eq_iff.1 hafter).1

/-! ## A pool with room for one more constant -/

/-- An operation that fails makes no difference to the operations after it, nor to the bytes of the pool. -/
def LeavesNoTrace {α : Type} (action : PoolAction α) (pool : ConstantPool) : Prop :=
  ∀ fault after, outcome action pool = (.error fault, after) →
    after.encode = pool.encode ∧ ∀ {β : Type} {later : PoolAction β}, Operation later →
      (outcome later after).1 = (outcome later pool).1

/-- A pool of numbers. -/
def numbers : Nat → ConstantPool
  | 0 => empty
  | count + 1 => (numbers count).store (.integer 0)

theorem nextOffset_numbers (count : Nat) : (numbers count).constants.nextOffset = count + 1 := by
  induction count with
  | zero => rfl
  | succ count ih =>
    rw [numbers, nextOffset_store, ih]
    rfl

theorem find?_numbers (count : Nat) (constant : Constant) : (numbers count).find? constant = none := by
  induction count with
  | zero => cases constant <;> simp [numbers, find?, empty]
  | succ count ih => cases constant <;> exact ih

theorem appendFault?_numbers {count : Nat} (h : count + 2 ≤ limit) :
    (numbers count).appendFault? (.integer 0) = none ∧ (numbers count).appendFault? (.utf8 "a") = none := by
  have hnumber : count + 1 + width (Constant.integer 0) ≤ limit := h
  have htext : count + 1 + width (Constant.utf8 "a") ≤ limit := h
  have hlength : ¬limit < ModifiedUtf8.encodedLength "a" := by decide
  simp [appendFault?, nextOffset_numbers, hnumber, htext, hlength]

theorem built_numbers {count : Nat} (h : count < limit) : (numbers count).Built := by
  induction count with
  | zero => exact .empty
  | succ count ih =>
    have hadded := (ih (Nat.lt_of_succ_lt h)).after (.append (.integer 0))
    rwa [outcome_append, (appendFault?_numbers h).1] at hadded

/-- There is room for one more text, and then for nothing. -/
theorem exists_appendFault?_store_numbers {count : Nat} (h : count + 2 = limit) (constant : Constant) :
    ∃ fault, ((numbers count).store (.utf8 "a")).appendFault? constant = some fault := by
  have hoffset : ((numbers count).store (.utf8 "a")).constants.nextOffset = count + 1 + width (Constant.utf8 "a") := by
    rw [nextOffset_store, nextOffset_numbers]
  have hwidth := constant.width_pos
  cases hfault : ((numbers count).store (.utf8 "a")).appendFault? constant with
  | some fault => exact ⟨fault, rfl⟩
  | none =>
    have hfits := fits_of_appendFault? hfault
    rw [hoffset, ← h] at hfits
    exact absurd hfits (Nat.not_le.2 (Nat.lt_add_of_pos_right hwidth))

theorem outcome_classRef_numbers {count : Nat} (h : count + 2 = limit) :
    ∃ fault, outcome (PoolAction.classRef "a") (numbers count) =
      (.error fault, (numbers count).store (.utf8 "a")) := by
  obtain ⟨fault, hfault⟩ := exists_appendFault?_store_numbers h (.classRef (UInt16.ofNat (count + 1)))
  have hname : outcome (PoolAction.intern (.utf8 "a")) (numbers count) =
      (.ok (UInt16.ofNat (count + 1)), (numbers count).store (.utf8 "a")) := by
    rw [outcome_intern, find?_numbers]
    simp only [outcome_append, (appendFault?_numbers (Nat.le_of_eq h)).2, nextOffset_numbers]
  have hnew (name : ConstantIndex) : ((numbers count).store (.utf8 "a")).find? (.classRef name) = none :=
    find?_numbers count (.classRef name)
  refine ⟨fault, ?_⟩
  rw [classRef_eq_intern, outcome_bind, hname]
  simp only [outcome_intern, hnew, outcome_append, hfault]

/-- There is nothing to replace in an empty pool. -/
theorem outcome_replace_empty :
    outcome (PoolAction.replace 5 (.utf8 "a")) empty =
      (.error (.missingConstant 5), (empty.forget 5).remember 5 (.utf8 "a")) := by with_unfolding_all rfl

/-- Asks for a class, and looks up its name. -/
def classAndName (name : String) : PoolAction (Except ClassFault String) := do
  let index ← PoolAction.classRef name
  return (← get).classNameAt index

/-- A class whose name was the last constant for which there was room. And a text that is found where it could not be
put, although other texts are searched for as before. -/
theorem failureTraces_numbers :
    (∃ fault after, outcome (PoolAction.classRef "a") (numbers 65533) = (.error fault, after) ∧
      after = (outcome (PoolAction.text "a") (numbers 65533)).2) ∧
    ∃ fault after, outcome (PoolAction.replace 5 (.utf8 "a")) empty = (.error fault, after) ∧
      after.find? (.utf8 "a") = some 5 ∧
      (outcome (classAndName "b") after).1 = (outcome (classAndName "b") empty).1 := by
  obtain ⟨fault, hrun⟩ := outcome_classRef_numbers (show 65533 + 2 = limit from rfl)
  refine ⟨⟨fault, _, hrun, ((failureTraces _).classRef hrun).1⟩, _, _, outcome_replace_empty, ?_⟩
  obtain ⟨-, -, hfound, hlater⟩ := (failureTraces empty).replace outcome_replace_empty
  have hnew (constant : Constant) : empty.find? constant = none := find?_numbers 0 constant
  have hbeside (constant : Constant) : empty.findBeside? 5 constant = none := by
    cases constant <;> simp [findBeside?, hnew]
  have hsame (constant : Constant) (hother : constant ≠ .utf8 "a") :
      ¬((empty.forget 5).remember 5 (.utf8 "a")).find? constant ≠ empty.find? constant := by
    simp [hfound, hother, hbeside, hnew]
  have hclass : Avoids (fun other => ((empty.forget 5).remember 5 (.utf8 "a")).find? other ≠ empty.find? other)
      (PoolAction.classRef "b") := .classRef (hsame _ (by decide)) fun text => hsame _ (by simp)
  exact ⟨by simp [hfound, hbeside, isFindable], (hlater (hclass.bind fun index => (avoids_lookups index).2.2.1)).1⟩

/-- The text takes the last index, which a number gets if the class was never asked for. And a text that was to be
put where there is nothing is found there all the same. -/
theorem failures_leaveTraces :
    (¬∀ pool, Built pool → ∀ name, LeavesNoTrace (PoolAction.classRef name) pool) ∧
      ¬∀ pool, Built pool → ∀ index constant, LeavesNoTrace (PoolAction.replace index constant) pool := by
  constructor
  · intro h
    obtain ⟨fault, hrun⟩ := outcome_classRef_numbers (show 65533 + 2 = limit from rfl)
    have hlater := (h _ (built_numbers (by decide)) "a" fault _ hrun).2 (.append (.integer 0))
    obtain ⟨fault', hfault⟩ := exists_appendFault?_store_numbers (show 65533 + 2 = limit from rfl) (.integer 0)
    have hroom := (appendFault?_numbers (show 65533 + 2 ≤ limit by decide)).1
    rw [outcome_append, outcome_append, hfault, hroom] at hlater
    cases hlater
  · intro h
    have hlater := (h _ .empty 5 (.utf8 "a") _ _ outcome_replace_empty).2 (.text "a")
    have hfound : ((empty.forget 5).remember 5 (.utf8 "a")).texts["a"]? = some 5 := by
      have htexts : ((empty.forget 5).remember 5 (.utf8 "a")).texts = empty.texts.insertIfNew "a" 5 := rfl
      rw [htexts, Std.HashMap.getElem?_insertIfNew]
      simp [empty]
    have hnew : empty.appendFault? (.utf8 "a") = none := by decide
    rw [outcome_text_of_found hfound, outcome_text_of_new Std.HashMap.getElem?_empty, outcome_append, hnew] at hlater
    exact absurd (Except.ok.inj hlater) (by decide)

end ConstantPool

end ClassSandbox
