import ClassSandbox.Proofs.ConstantPool.RoundTrip

/-!
# What a pool finds after replacements

A pool that changes only by additions and by replacements that succeed finds the right constants, with one
exception. The maps never forget a text, so a text that was replaced is still found where it was. `Obtained` keeps
an account of these texts with their indices, and `finds_of_obtained` says that nothing else goes wrong: a pair is
always found as it is, and so is a class, whose name is right unless its text was replaced.
-/

namespace ClassSandbox

variable {lost : List (ConstantIndex × String)} {pool after : ConstantPool} {index : ConstantIndex}
  {constant : Constant}

namespace ConstantPool

/-- The text that a replacement takes away from an index, if there is one. -/
def overwritten (pool : ConstantPool) (index : ConstantIndex) (constant : Constant) :
    List (ConstantIndex × String) :=
  match pool.constantAt index with
  | .ok (.utf8 text) => if constant = .utf8 text then [] else [(index, text)]
  | _ => []

theorem mem_overwritten {text : String} (hold : pool.constantAt index = .ok (.utf8 text))
    (hne : constant ≠ .utf8 text) : (index, text) ∈ pool.overwritten index constant := by
  simp only [overwritten, hold, if_neg hne, List.mem_singleton]

/-- The pools that come from an empty one, or from one that was read, by additions with any outcomes and by
replacements that succeed, with the texts that were replaced and their indices. -/
inductive Obtained : List (ConstantIndex × String) → ConstantPool → Prop where
  | empty : Obtained [] empty
  | read {bytes rest : Bytes} {pool : ConstantPool} (h : decode bytes = .ok (pool, rest)) : Obtained [] pool
  | added {lost : List (ConstantIndex × String)} {pool : ConstantPool} {α : Type} {action : PoolAction α}
      (obtained : Obtained lost pool) (addition : PoolAction.Addition action) :
      Obtained lost (outcome action pool).2
  | replaced {lost : List (ConstantIndex × String)} {pool after : ConstantPool} {index : ConstantIndex}
      {constant : Constant} (obtained : Obtained lost pool)
      (run : outcome (PoolAction.replace index constant) pool = (.ok (), after)) :
      Obtained (pool.overwritten index constant ++ lost) after

/-! ## The account -/

/-- A constant is at an index, or it is a text that was there until it was replaced. -/
def Stands (lost : List (ConstantIndex × String)) (pool : ConstantPool) (index : ConstantIndex)
    (constant : Constant) : Prop :=
  pool.constantAt index = .ok constant ∨ ∃ text, constant = .utf8 text ∧ (index, text) ∈ lost

/-- A pool in which whatever the maps find stands where it is found. -/
structure Accounted (lost : List (ConstantIndex × String)) (pool : ConstantPool) : Prop where
  numbered : pool.Numbered
  found {constant : Constant} {index : ConstantIndex} :
    pool.find? constant = some index → pool.Stands lost index constant

theorem Sound.accounted (h : pool.Sound) (hnumbered : pool.Numbered) : pool.Accounted [] :=
  ⟨hnumbered, fun hfound => .inl (h.found hfound)⟩

theorem Accounted.store (h : pool.Accounted lost) (hfits : pool.constants.nextOffset + width constant ≤ limit) :
    (pool.store constant).Accounted lost where
  numbered := numbered_store h.numbered hfits
  found := by
    intro other found hfound
    rcases find?_remember hfound with ⟨rfl, rfl⟩ | hold
    · exact .inl (constantAt_nextOffset_store h.numbered.ordered h.numbered.fits)
    · exact (h.found hold).imp_left fun hthere => grows_store h.numbered.ordered _ _ hthere

theorem Accounted.exchange (h : pool.Accounted lost)
    (hfault : pool.constants.setFault? index.toNat constant = none) :
    (pool.exchange index constant).Accounted (pool.overwritten index constant ++ lost) where
  numbered := ⟨(numbered_set h.numbered index constant).packed, (numbered_set h.numbered index constant).fits⟩
  found := by
    intro other found hfound
    have hat := constantAt_exchange h.numbered.ordered hfault found
    -- What is found is new, or else it was found before, and then it can only be at the index if it is a text.
    rcases find?_exchange hfound with ⟨rfl, rfl⟩ | ⟨hold, hkept⟩
    · exact .inl (by rw [hat, if_pos rfl])
    · rcases h.found hold with hthere | ⟨text, htext, hlost⟩
      · by_cases hsame : found = index
        · subst hsame
          obtain ⟨text, rfl⟩ := hkept.resolve_right fun hne => hne rfl
          by_cases hnew : constant = .utf8 text
          · exact .inl (by rw [hat, if_pos rfl, hnew])
          · exact .inr ⟨text, rfl, List.mem_append_left _ (mem_overwritten hthere hnew)⟩
        · exact .inl (by rw [hat, if_neg hsame, hthere])
      · exact .inr ⟨text, htext, List.mem_append_right _ hlost⟩

end ConstantPool

namespace PoolAction

open ConstantPool

theorem append_keeps_accounted (constant : Constant) : Keeps (append constant) (Accounted lost) := by
  intro pool h
  rw [outcome_append]
  split
  · exact h
  · rename_i hfault
    exact h.store (fits_of_appendFault? hfault)

/-- A constant is found or appended. -/
theorem stands_of_intern (h : pool.Accounted lost) (hrun : outcome (intern constant) pool = (.ok index, after)) :
    pool.Grows after ∧ after.Stands lost index constant := by
  rw [outcome_intern] at hrun
  split at hrun
  · rename_i found hfound
    cases hrun
    exact ⟨fun _ _ hold => hold, h.found hfound⟩
  · rw [outcome_append] at hrun
    split at hrun
    · cases hrun
    · cases hrun
      have hordered := h.numbered.ordered
      exact ⟨grows_store hordered, .inl (constantAt_nextOffset_store hordered h.numbered.fits)⟩

end PoolAction

namespace ConstantPool

theorem Obtained.accounted (h : pool.Obtained lost) : pool.Accounted lost := by
  induction h with
  | empty => exact sound_empty.accounted numbered_empty
  | read h => exact (sound_of_decode h).accounted (yields_decode _ _ _ h).1
  | added _ addition ih => exact addition.keeps PoolAction.append_keeps_accounted _ ih
  | replaced _ run ih =>
    obtain ⟨hfault, rfl⟩ := PoolAction.replace_eq_ok run
    exact ih.exchange hfault

/-! ## Finding -/

/-- What is found or added is what was asked for, except for texts that were replaced. -/
structure Finds (lost : List (ConstantIndex × String)) (pool : ConstantPool) : Prop where
  text {content : String} {index : ConstantIndex} {after : ConstantPool} :
    outcome (PoolAction.text content) pool = (.ok index, after) → (index, content) ∉ lost →
      after.textAt index = .ok content
  /-- A class is found, and only its name may have been replaced. -/
  classRef {name : String} {index : ConstantIndex} {after : ConstantPool} :
    outcome (PoolAction.classRef name) pool = (.ok index, after) →
      ∃ text, after.constantAt index = .ok (.classRef text) ∧
        ((text, name) ∉ lost → after.classNameAt index = .ok name)
  nameAndType {name descriptor index : ConstantIndex} {after : ConstantPool} :
    outcome (PoolAction.nameAndType name descriptor) pool = (.ok index, after) →
      after.constantAt index = .ok (.nameAndType name descriptor)

theorem Stands.textAt {text : String} (h : pool.Stands lost index (.utf8 text)) (hkept : (index, text) ∉ lost) :
    pool.textAt index = .ok text := by
  rcases h with hthere | ⟨_, heq, hlost⟩
  · exact textAt_eq_ok_iff.2 hthere
  · cases heq
    exact absurd hlost hkept

theorem Stands.of_not_text (h : pool.Stands lost index constant) (hplain : ∀ text, constant ≠ .utf8 text) :
    pool.constantAt index = .ok constant :=
  h.resolve_right fun ⟨text, heq, _⟩ => hplain text heq

/-- Only a text that was replaced is found where it no longer is. -/
theorem finds_of_obtained (h : pool.Obtained lost) : pool.Finds lost where
  text hrun hkept := by
    rw [PoolAction.text_eq_intern] at hrun
    exact (PoolAction.stands_of_intern h.accounted hrun).2.textAt hkept
  classRef {name index after} hrun := by
    rw [PoolAction.classRef_eq_intern] at hrun
    obtain ⟨text, middle, htext, hclass⟩ := outcome_bind_eq_ok_iff.1 hrun
    have hmiddle : middle.Obtained lost := by
      have hadded := h.added (.text name)
      rwa [PoolAction.text_eq_intern, htext] at hadded
    obtain ⟨hgrows, hthere⟩ := PoolAction.stands_of_intern hmiddle.accounted hclass
    have hclassRef := hthere.of_not_text nofun
    refine ⟨text, hclassRef, fun hkept => classNameAt_eq_ok_iff.2 ⟨text, hclassRef, ?_⟩⟩
    -- The class was found or added after the text, which has stayed.
    have hname := (PoolAction.stands_of_intern h.accounted htext).2
    exact Stands.textAt (hname.imp_left (hgrows _ _)) hkept
  nameAndType hrun := by
    rw [PoolAction.nameAndType_eq_intern] at hrun
    exact (PoolAction.stands_of_intern h.accounted hrun).2.of_not_text nofun

/-! ## An example -/

/-- The pool in which the text `a` was replaced by another one. -/
def replacedPool : ConstantPool := (empty.store (.utf8 "a")).exchange 1 (.utf8 "b")

theorem obtained_replacedPool : replacedPool.Obtained [(1, "a")] := by
  have hadd : outcome (PoolAction.text "a") empty = (.ok 1, empty.store (.utf8 "a")) := by
    rw [PoolAction.outcome_text_of_new Std.HashMap.getElem?_empty, PoolAction.outcome_append]
    with_unfolding_all rfl
  have hreplace : outcome (PoolAction.replace 1 (.utf8 "b")) (empty.store (.utf8 "a")) =
      (.ok (), replacedPool) := by with_unfolding_all rfl
  have hstored : (empty.store (.utf8 "a")).Obtained [] := by
    have hadded := Obtained.empty.added (.text "a")
    rwa [hadd] at hadded
  have hlost : (empty.store (.utf8 "a")).overwritten 1 (.utf8 "b") ++ [] = [(1, "a")] := by with_unfolding_all rfl
  exact hlost ▸ hstored.replaced hreplace

theorem outcome_text_replacedPool : ∀ content ∈ ["a", "b"],
    outcome (PoolAction.text content) replacedPool = (.ok 1, replacedPool) := by
  have htexts : replacedPool.texts = (empty.texts.insertIfNew "a" 1).insertIfNew "b" 1 := rfl
  intro content hmem
  refine PoolAction.outcome_text_of_found ?_
  simp only [htexts, empty, Std.HashMap.getElem?_insertIfNew]
  rcases List.mem_pair.1 hmem with rfl | rfl <;> simp

theorem textAt_replacedPool : replacedPool.textAt 1 = .ok "b" := by with_unfolding_all rfl

/-- The other text is found, and a class of that name is added. -/
theorem finds_of_obtained_replaced :
    replacedPool.Obtained [(1, "a")] ∧
      outcome (PoolAction.text "b") replacedPool = (.ok 1, replacedPool) ∧ replacedPool.textAt 1 = .ok "b" ∧
      ∃ after, outcome (PoolAction.classRef "b") replacedPool = (.ok 2, after) ∧ after.classNameAt 2 = .ok "b" := by
  have hfinds := finds_of_obtained obtained_replacedPool
  have htext := outcome_text_replacedPool "b" (by simp)
  have hclass : outcome (PoolAction.classRef "b") replacedPool = (.ok 2, replacedPool.store (.classRef 1)) := by
    have hnew : replacedPool.classes[(1 : ConstantIndex)]? = none := by
      simp [replacedPool, exchange, remember, forget, store, empty]
    rw [PoolAction.classRef, outcome_bind, htext]
    simp only [outcome_bind, outcome_get, hnew, PoolAction.outcome_append]
    with_unfolding_all rfl
  obtain ⟨text, hat, hname⟩ := hfinds.classRef hclass
  have hsame : (replacedPool.store (.classRef 1)).constantAt 2 = .ok (.classRef 1) := by with_unfolding_all rfl
  rw [hsame] at hat
  cases hat
  exact ⟨obtained_replacedPool, htext, hfinds.text htext (by decide), _, hclass, hname (by decide)⟩

/-- A text that was replaced is still found. -/
theorem text_finds_replaced :
    ¬∀ lost pool, Obtained lost pool → ∀ content index after,
      outcome (PoolAction.text content) pool = (.ok index, after) → after.textAt index = .ok content := by
  intro h
  have hfound := h _ _ obtained_replacedPool "a" 1 replacedPool (outcome_text_replacedPool "a" (by simp))
  rw [textAt_replacedPool] at hfound
  exact absurd (Except.ok.inj hfound) (by decide)

end ConstantPool

end ClassSandbox
