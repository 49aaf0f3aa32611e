import ClassSandbox.MethodCost
import ClassSandbox.Proofs.Decimal
import ClassSandbox.Proofs.Outcome
import ClassSandbox.Proofs.Text.Words
import Mathlib.Data.List.Forall2

/-!
# What a file of costs says

An `Entry` is a line of a file of costs together with the key and the cost that it gives, said without the order in
which `readEntry` looks at the parts of a line (`readEntry_eq_ok_iff`). Reading the lines puts their entries into the
table from the first to the last, and so the last one with a key is the one that counts (`get?_insertAll_eq_some_iff`).
It ends at the first line that is no entry (`readLines_eq_error`).

`CostTable.parse_readsLines` is what follows for whole files.
-/

namespace ClassSandbox

namespace MethodCost

/-! ## Flags -/

theorem toNat_toLower (c : Char) :
    c.toLower.toNat = if 65 ≤ c.toNat ∧ c.toNat ≤ 90 then c.toNat + 32 else c.toNat := by
  have hrange : (c.val ≥ 'A'.val ∧ c.val ≤ 'Z'.val) ↔ (65 ≤ c.toNat ∧ c.toNat ≤ 90) := by
    simp only [ge_iff_le, UInt32.le_iff_toNat_le]
    rfl
  unfold Char.toLower
  simp only [hrange]
  split
  · change (c.val + 32).toNat = c.val.toNat + 32
    rw [UInt32.toNat_add]
    change (c.toNat + 32) % 2 ^ 32 = c.toNat + 32
    omega
  · rfl

theorem toNat_toUpper (c : Char) :
    c.toUpper.toNat = if 97 ≤ c.toNat ∧ c.toNat ≤ 122 then c.toNat - 32 else c.toNat := by
  have hrange : ('a'.val ≤ c.val ∧ c.val ≤ 'z'.val) ↔ (97 ≤ c.toNat ∧ c.toNat ≤ 122) := by
    simp only [UInt32.le_iff_toNat_le]
    rfl
  unfold Char.toUpper
  simp only [hrange]
  split
  · change (c.val + ('A'.val - 'a'.val)).toNat = c.val.toNat - 32
    have hdistance : ('A'.val - 'a'.val).toNat = 2 ^ 32 - 32 := by decide
    rw [UInt32.toNat_add, hdistance, Char.toNat_val]
    omega
  · rfl

theorem toLower_eq_iff {c letter : Char} (h : letter.isLower = true) :
    c.toLower = letter ↔ c = letter ∨ c = letter.toUpper := by
  obtain ⟨hlow, hhigh⟩ := Bool.and_eq_true_iff.1 h
  have hletter : 97 ≤ letter.toNat ∧ letter.toNat ≤ 122 :=
    ⟨UInt32.le_iff_toNat_le.1 (of_decide_eq_true hlow), UInt32.le_iff_toNat_le.1 (of_decide_eq_true hhigh)⟩
  simp only [← Char.toNat_inj, toNat_toLower, toNat_toUpper]
  split <;> omega

/-- The text is the word, with any of its letters as capitals. -/
def Spells (text word : List Char) : Prop := List.Forall₂ (fun c letter => c = letter ∨ c = letter.toUpper) text word

theorem map_toLower_eq_iff {text word : List Char} (hlower : ∀ letter ∈ word, letter.isLower = true) :
    text.map Char.toLower = word ↔ Spells text word := by
  unfold Spells
  induction text generalizing word with
  | nil => cases word <;> simp
  | cons c text ih =>
    cases word with
    | nil => simp
    | cons letter word =>
      obtain ⟨hletter, hword⟩ := List.forall_mem_cons.1 hlower
      rw [List.map_cons, List.cons.injEq, toLower_eq_iff hletter, ih hword, List.forall₂_cons]

/-- How a flag is written. -/
def flagWord (flag : Bool) : List Char := if flag then "true".toList else "false".toList

theorem isLower_of_mem_flagWord {flag : Bool} : ∀ letter ∈ flagWord flag, letter.isLower = true :=
  List.all_eq_true.1 (by cases flag <;> rfl)

theorem readFlag_eq_ok_iff {text : List Char} {flag : Bool} :
    readFlag text = .ok flag ↔ Spells text (flagWord flag) := by
  rw [← map_toLower_eq_iff isLower_of_mem_flagWord]
  simp only [readFlag, flagWord]
  have hdistinct : "true".toList ≠ "false".toList := by decide
  generalize "true".toList = yes, "false".toList = no, text.map Char.toLower = lower at hdistinct ⊢
  cases flag <;> grind

/-! ## Entries -/

/-- The line is a key, a number of cycles and a flag, with blanks between them. The key is the name of a class, a
slash and the name of a method. -/
inductive Entry (line : List Char) : String → MethodCost → Prop
  | mk {owner method cycles flag : List Char} {number : Nat} {endsQuantum : Bool} :
    Text.MadeOf line [owner ++ '/' :: method, cycles, flag] →
    BinaryName.IsValid (String.ofList owner) → UnqualifiedName.fault? method = none →
    Decimal.Writes cycles number → number < UInt32.size → Spells flag (flagWord endsQuantum) →
    Entry line (String.ofList (owner ++ '/' :: method)) ⟨UInt32.ofNat number, endsQuantum⟩

def IsEntry (line : List Char) : Prop := ∃ key cost, Entry line key cost

theorem keyFault?_eq_none_iff {key : List Char} :
    keyFault? key = none ↔ ∃ owner method, key = owner ++ '/' :: method ∧
      BinaryName.IsValid (String.ofList owner) ∧ UnqualifiedName.fault? method = none := by
  have hfault : ∀ {owner method : List Char},
      (BinaryName.fault? (String.ofList owner) <|> UnqualifiedName.fault? method).map CostFault.badName = none ↔
        BinaryName.IsValid (String.ofList owner) ∧ UnqualifiedName.fault? method = none := by
    intro owner method
    simp [BinaryName.IsValid]
  unfold keyFault?
  constructor
  · intro h
    split at h
    · cases h
    · next owner method hsplit =>
      exact ⟨owner, method, (Text.splitLast?_eq_some hsplit).1, hfault.1 h⟩
  · rintro ⟨owner, method, rfl, hnames⟩
    -- A method's name has no slash, so the slash in front of it is the last one of the key.
    have hfree : '/' ∉ method := fun hmem =>
      absurd ((UnqualifiedName.fault?_eq_none_iff.1 hnames.2).2 '/' hmem) (by decide)
    rw [Text.splitLast?_append hfree]
    exact hfault.2 hnames

theorem readEntry_eq_ok_iff {line : List Char} {key : String} {cost : MethodCost} :
    readEntry line = .ok (key, cost) ↔ Entry line key cost := by
  have hsize : 0 < UInt32.size := by decide
  constructor
  · intro h
    unfold readEntry at h
    split at h
    · next name cycles flag hwords =>
      split at h
      · cases h
      · next hkey =>
        obtain ⟨owner, method, rfl, howner, hmethod⟩ := keyFault?_eq_none_iff.1 hkey
        split at h
        · cases h
        · next number hnumber =>
          obtain ⟨hwrites, hbound⟩ := (Decimal.readBelow_eq_ok_iff hsize).1 hnumber
          obtain ⟨endsQuantum, hflag, heq⟩ := except_map_eq_ok_iff.1 h
          obtain ⟨rfl, rfl⟩ := Prod.mk.inj heq
          exact .mk (Text.words_eq_iff.1 hwords) howner hmethod hwrites hbound (readFlag_eq_ok_iff.1 hflag)
    · cases h
  · rintro ⟨hwords, howner, hmethod, hwrites, hbound, hflag⟩
    unfold readEntry
    rw [Text.words_eq_iff.2 hwords]
    simp only [keyFault?_eq_none_iff.2 ⟨_, _, rfl, howner, hmethod⟩,
      (Decimal.readBelow_eq_ok_iff hsize).2 ⟨hwrites, hbound⟩, readFlag_eq_ok_iff.2 hflag]
    rfl

example : readEntry "a/b +07 True\r".toList = .ok ("a/b", ⟨7, true⟩) := by rfl

theorem isEntry_iff {line : List Char} : IsEntry line ↔ ∃ entry, readEntry line = .ok entry := by
  simp only [IsEntry, ← readEntry_eq_ok_iff, Prod.exists]

theorem not_isEntry_iff {line : List Char} : ¬ IsEntry line ↔ ∃ fault, readEntry line = .error fault := by
  rw [isEntry_iff]
  cases readEntry line <;> simp

/-- Lines are cut at line feeds. A carriage return that is left at the end of a line is a blank like others. -/
theorem entry_append_return {line : List Char} {key : String} {cost : MethodCost} :
    Entry (line ++ ['\r']) key cost ↔ Entry line key cost := by
  have hwords : Text.words (line ++ ['\r']) = Text.words line := Text.words_append_blank line (by decide)
  rw [← readEntry_eq_ok_iff, ← readEntry_eq_ok_iff, readEntry, hwords, ← readEntry]

end MethodCost

/-! ## Tables -/

namespace CostTable

open MethodCost (Entry IsEntry readEntry readEntry_eq_ok_iff isEntry_iff not_isEntry_iff)

variable {file key : String} {cost : MethodCost} {number : Nat} {table result : CostTable}
  {line : List Char} {lines : List (List Char)}

@[simp]
theorem get?_empty (key : String) : empty.get? key = none :=
  Std.HashMap.getElem?_empty

theorem get?_insert (table : CostTable) (key other : String) (cost : MethodCost) :
    (table.insert key cost).get? other = if key = other then some cost else table.get? other := by
  simp [get?, insert, Std.HashMap.getElem?_insert]

/-- No line is an entry with the key. -/
def NoneFor (lines : List (List Char)) (key : String) : Prop := ∀ line ∈ lines, ∀ cost, ¬ Entry line key cost

/-- The last line that is an entry with the key gives it the cost. -/
def LastFor (lines : List (List Char)) (key : String) (cost : MethodCost) : Prop :=
  ∃ before line after, lines = before ++ line :: after ∧ Entry line key cost ∧ NoneFor after key

theorem noneFor_cons : NoneFor (line :: lines) key ↔ (∀ cost, ¬ Entry line key cost) ∧ NoneFor lines key :=
  List.forall_mem_cons

theorem not_lastFor_nil : ¬ LastFor [] key cost := by
  rintro ⟨before, line, after, hlines, -⟩
  exact absurd hlines.symm (List.append_ne_nil_of_right_ne_nil before (List.cons_ne_nil line after))

theorem lastFor_cons :
    LastFor (line :: lines) key cost ↔ LastFor lines key cost ∨ Entry line key cost ∧ NoneFor lines key := by
  constructor
  · rintro ⟨before, last, after, hlines, hentry, hnone⟩
    rcases List.cons_eq_append_iff.1 hlines with ⟨-, h⟩ | ⟨front, -, h⟩
    · obtain ⟨rfl, rfl⟩ := List.cons.inj h
      exact .inr ⟨hentry, hnone⟩
    · exact .inl ⟨front, last, after, h, hentry, hnone⟩
  · rintro (⟨before, last, after, rfl, hentry, hnone⟩ | ⟨hentry, hnone⟩)
    · exact ⟨line :: before, last, after, rfl, hentry, hnone⟩
    · exact ⟨[], line, lines, rfl, hentry, hnone⟩

theorem noneFor_iff : NoneFor lines key ↔ ∀ cost, ¬ LastFor lines key cost := by
  induction lines with
  | nil => exact ⟨fun _ _ => not_lastFor_nil, fun _ _ hmem => nomatch hmem⟩
  | cons line lines ih =>
    rw [noneFor_cons, ih]
    simp only [lastFor_cons, not_or, not_and, ih]
    grind

theorem exists_readLines_iff :
    (∃ result, readLines file number table lines = .ok result) ↔ ∀ line ∈ lines, IsEntry line := by
  induction lines generalizing number table with
  | nil => simp [readLines]
  | cons line lines ih =>
    rw [List.forall_mem_cons, isEntry_iff, readLines]
    cases readEntry line with
    | error fault => simp
    | ok entry => simpa using ih

/-- Each entry overwrites what earlier ones say of its key, and the rest of the table stays. -/
theorem get?_readLines (h : readLines file number table lines = .ok result) :
    result.get? key = some cost ↔ LastFor lines key cost ∨ table.get? key = some cost ∧ NoneFor lines key := by
  induction lines generalizing number table with
  | nil =>
    obtain ⟨⟩ := h
    simp [not_lastFor_nil, NoneFor]
  | cons line lines ih =>
    rw [readLines] at h
    split at h
    · cases h
    · next own given hread =>
      have hentry : ∀ key cost, Entry line key cost ↔ own = key ∧ given = cost := by
        intro key cost
        rw [← readEntry_eq_ok_iff, hread]
        simp
      rw [ih h, get?_insert, lastFor_cons, noneFor_cons]
      simp only [hentry]
      grind

theorem readLines_eq_error {fault : SandboxFault} (h : readLines file number table lines = .error fault) :
    ∃ before line after detail, lines = before ++ line :: after ∧ (∀ earlier ∈ before, IsEntry earlier) ∧
      ¬ IsEntry line ∧ fault = .malformedResource file (number + before.length) detail := by
  induction lines generalizing number table with
  | nil => cases h
  | cons line lines ih =>
    rw [readLines] at h
    split at h
    · next detail hread =>
      obtain ⟨⟩ := h
      exact ⟨[], line, lines, detail, rfl, by simp, not_isEntry_iff.2 ⟨detail, hread⟩, rfl⟩
    · next own given hread =>
      obtain ⟨before, bad, after, detail, rfl, hbefore, hbad, rfl⟩ := ih h
      refine ⟨line :: before, bad, after, detail, rfl, ?_, hbad, ?_⟩
      · exact List.forall_mem_cons.2 ⟨isEntry_iff.2 ⟨_, hread⟩, hbefore⟩
      · rw [List.length_cons, Nat.add_right_comm, Nat.add_assoc]

/-- What the lines of a file make of it. -/
structure ReadsLines (file text : String) (lines : List (List Char)) : Prop where
  /-- The file is read if and only if every line is an entry. -/
  accepts : (∃ table, parse file text = .ok table) ↔ ∀ line ∈ lines, IsEntry line
  /-- Of the entries with a key the last one counts. -/
  last : ∀ {table}, parse file text = .ok table → ∀ key cost, table.get? key = some cost ↔ LastFor lines key cost
  /-- Without an entry a key has no cost. -/
  absent : ∀ {table}, parse file text = .ok table → ∀ key, table.get? key = none ↔ NoneFor lines key
  /-- A fault has the number of the first line that is no entry, counted from one. -/
  first : ∀ {fault}, parse file text = .error fault → ∃ before line after detail, lines = before ++ line :: after ∧
    (∀ earlier ∈ before, IsEntry earlier) ∧ ¬ IsEntry line ∧ fault = .malformedResource file (before.length + 1) detail
  /-- Whether a line ends in a carriage return makes no difference. -/
  returns : ∀ line key cost, Entry (line ++ ['\r']) key cost ↔ Entry line key cost

/-- Each text is made of lines, and they decide on the result of reading it. -/
theorem parse_readsLines (file text : String) :
    ∃ lines, Text.Lined text.toList lines ∧ ReadsLines file text lines := by
  have hget : ∀ {table}, parse file text = .ok table → ∀ key cost,
      table.get? key = some cost ↔ LastFor (Text.lines text.toList) key cost := by
    intro table h key cost
    rw [get?_readLines h]
    simp
  refine ⟨Text.lines text.toList, Text.lines_eq_iff.1 rfl, ?_⟩
  exact {
    accepts := exists_readLines_iff
    last := hget
    absent := fun h key => by
      rw [noneFor_iff, Option.eq_none_iff_forall_ne_some]
      exact forall_congr' fun cost => not_congr (hget h key cost)
    first := fun h => by
      obtain ⟨before, line, after, detail, hlines, hbefore, hline, rfl⟩ := readLines_eq_error h
      exact ⟨before, line, after, detail, hlines, hbefore, hline, by rw [Nat.add_comm]⟩
    returns := fun line key cost => MethodCost.entry_append_return }

end CostTable

end ClassSandbox
