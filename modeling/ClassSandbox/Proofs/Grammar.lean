import ClassSandbox.Grammar.Read

/-!
# What a parser takes

`Takes` says which value a parser has read and what it has left of the text, without the proof that this is
shorter. It passes through the ways in which parsers are put together (`takes_map_iff`, `takes_within_iff`),
`parseAll` asks for a value that leaves nothing (`parseAll_eq_ok_iff`), and `parseFront` hands on what is left
(`parseFront_eq_ok_iff`).
-/

namespace ClassSandbox

variable {α β : Type} {text longer rest : List Char}

/-- A value was read off the front of a text, with a rest after it. -/
def Takes (result : Except SyntaxFault (Read α text)) (value : α) (rest : List Char) : Prop :=
  ∃ shorter, result = .ok ⟨value, rest, shorter⟩

theorem takes_ok_iff {a value : α} {after : List Char} {shorter : after.length < text.length} :
    Takes (.ok ⟨a, after, shorter⟩ : Except SyntaxFault (Read α text)) value rest ↔ a = value ∧ after = rest := by
  constructor
  · rintro ⟨_, h⟩
    cases h
    exact ⟨rfl, rfl⟩
  · rintro ⟨rfl, rfl⟩
    exact ⟨shorter, rfl⟩

theorem not_takes_error {fault : SyntaxFault} {value : α} :
    ¬ Takes (.error fault : Except SyntaxFault (Read α text)) value rest := by
  rintro ⟨_, h⟩
  cases h

variable {result : Except SyntaxFault (Read α text)}

theorem takes_map_iff {f : α → β} {value : β} :
    Takes (result.map (Read.map f)) value rest ↔ ∃ a, Takes result a rest ∧ f a = value := by
  rcases result with fault | ⟨a, after, shorter⟩
  · constructor
    · exact fun h => absurd h not_takes_error
    · rintro ⟨_, h, -⟩
      exact absurd h not_takes_error
  · simp only [Except.map, Read.map, takes_ok_iff]
    constructor
    · rintro ⟨hvalue, hrest⟩
      exact ⟨a, ⟨rfl, hrest⟩, hvalue⟩
    · rintro ⟨_, ⟨rfl, hrest⟩, hvalue⟩
      exact ⟨hvalue, hrest⟩

theorem takes_within_iff {f : α → β} {value : β} (within : text.length ≤ longer.length) :
    Takes (result.map fun read => (read.map f).within within) value rest ↔
      ∃ a, Takes result a rest ∧ f a = value := by
  rcases result with fault | ⟨a, after, shorter⟩
  · constructor
    · exact fun h => absurd h not_takes_error
    · rintro ⟨_, h, -⟩
      exact absurd h not_takes_error
  · simp only [Except.map, Read.map, Read.within, takes_ok_iff]
    constructor
    · rintro ⟨hvalue, hrest⟩
      exact ⟨a, ⟨rfl, hrest⟩, hvalue⟩
    · rintro ⟨_, ⟨rfl, hrest⟩, hvalue⟩
      exact ⟨hvalue, hrest⟩

theorem takes_widen_iff {within : text.length ≤ longer.length} {a : α} :
    Takes (result.map fun read => read.within within) a rest ↔ Takes result a rest := by
  rcases result with fault | ⟨b, after, shorter⟩
  · exact ⟨fun h => absurd h not_takes_error, fun h => absurd h not_takes_error⟩
  · simp only [Except.map, Read.within, takes_ok_iff]

theorem parseAll_eq_ok_iff {parser : Parser α} {text : String} {value : α} :
    parseAll parser text = .ok value ↔ Takes (parser text.toList) value [] := by
  unfold parseAll
  rcases parser text.toList with fault | ⟨a, _ | ⟨c, after⟩, shorter⟩
  · exact ⟨fun h => (nomatch h), fun h => absurd h not_takes_error⟩
  · simp [takes_ok_iff]
  · simp [takes_ok_iff]

theorem parseFront_eq_ok_iff {parser : Parser α} {text rest : String} {value : α} :
    parseFront parser text = .ok (value, rest) ↔ Takes (parser text.toList) value rest.toList := by
  unfold parseFront
  rcases parser text.toList with fault | ⟨a, after, shorter⟩
  · exact ⟨fun h => (nomatch h), fun h => absurd h not_takes_error⟩
  · simp [Except.map, takes_ok_iff, ← String.toList_inj]

/-! ## Scanning -/

section Scan

variable {p : Char → Bool} {front after : List Char}

/-- What a scan stops at, with the text put together again. -/
theorem eq_append_of_dropWhile {c : Char} (h : text.dropWhile p = c :: after) :
    p c = false ∧ text = text.takeWhile p ++ c :: after := by
  have hstop := List.head?_dropWhile_not p text
  rw [h] at hstop
  exact ⟨by simpa using hstop, by rw [← h, List.takeWhile_append_dropWhile]⟩

theorem takeWhile_append_of_stop (hfront : ∀ c ∈ front, p c = true) (hstop : ∀ c ∈ after.head?, p c = false) :
    (front ++ after).takeWhile p = front := by
  rw [List.takeWhile_append_of_pos hfront]
  cases after with
  | nil => simp
  | cons c after => rw [List.takeWhile_cons_of_neg (Bool.eq_false_iff.1 (hstop c rfl)), List.append_nil]

theorem dropWhile_append_of_stop (hfront : ∀ c ∈ front, p c = true) (hstop : ∀ c ∈ after.head?, p c = false) :
    (front ++ after).dropWhile p = after := by
  rw [List.dropWhile_append_of_pos hfront]
  cases after with
  | nil => rfl
  | cons c after => rw [List.dropWhile_cons_of_neg (Bool.eq_false_iff.1 (hstop c rfl))]

/-- Any text starts with some number of marks. -/
theorem exists_eq_replicate_append (mark : Char) (text : List Char) :
    ∃ count rest, text = List.replicate count mark ++ rest ∧ rest.head? ≠ some mark := by
  refine ⟨(text.takeWhile (· == mark)).length, text.dropWhile (· == mark), ?_, ?_⟩
  · have hmarks : text.takeWhile (· == mark) = List.replicate (text.takeWhile (· == mark)).length mark :=
      List.eq_replicate_of_mem fun c hc => by simpa using List.all_eq_true.1 List.all_takeWhile c hc
    rw [← hmarks, List.takeWhile_append_dropWhile]
  · intro hmark
    simpa [hmark] using List.head?_dropWhile_not (· == mark) text

/-- Marks that nothing but the text after them follows. -/
theorem scan_replicate_append {mark : Char} {after : List Char} (count : Nat) (hstop : after.head? ≠ some mark) :
    (List.replicate count mark ++ after).takeWhile (· == mark) = List.replicate count mark ∧
      (List.replicate count mark ++ after).dropWhile (· == mark) = after := by
  have hfront : ∀ c ∈ List.replicate count mark, (c == mark) = true := by simp
  have hafter : ∀ c ∈ after.head?, (c == mark) = false := by
    rintro c hc
    rw [beq_eq_false_iff_ne]
    rintro rfl
    exact hstop hc
  exact ⟨takeWhile_append_of_stop hfront hafter, dropWhile_append_of_stop hfront hafter⟩

end Scan

end ClassSandbox
