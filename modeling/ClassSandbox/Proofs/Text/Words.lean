import ClassSandbox.Text.Blank

/-!
# Words and lines as relations

What `words` and `lines` give, said without the way they look for separators. A text is `MadeOf` its words when
nothing else is in it but blanks, at least one of them behind each word that is not the last of the text
(`words_eq_iff`). A text is `Lined` when it is its lines with a line feed behind each, which only the last line can
go without (`lines_eq_iff`). In both cases there is only one way to cut a text.
-/

namespace ClassSandbox.Text

/-! ## Words -/

/-- At least one character, and none of them blank. -/
structure IsWord (text : List Char) : Prop where
  ne_nil : text ≠ []
  free : ∀ c ∈ text, isBlank c = false

/-- The text is these words, with blanks between them and maybe around them. -/
inductive MadeOf : List Char → List (List Char) → Prop
  | nil : MadeOf [] []
  | blank {c : Char} {text : List Char} {words : List (List Char)} :
    isBlank c = true → MadeOf text words → MadeOf (c :: text) words
  | word {word text : List Char} {words : List (List Char)} :
    IsWord word → (∀ c ∈ text.head?, isBlank c = true) → MadeOf text words → MadeOf (word ++ text) (word :: words)

@[simp]
theorem words_nil : words [] = [] := by
  simp [words, List.splitOnP_nil]

theorem words_cons {c : Char} (hblank : isBlank c = true) (text : List Char) : words (c :: text) = words text := by
  simp [words, List.splitOnP_cons_eq_if_modifyHead, hblank]

theorem words_word {word : List Char} (hword : IsWord word) : words word = [word] := by
  rw [words, List.splitOnP_eq_singleton (by simpa using hword.free)]
  simpa using hword.ne_nil

/-- A word is over where a blank follows. -/
theorem words_append {word text : List Char} (hword : IsWord word) (hends : ∀ c ∈ text.head?, isBlank c = true) :
    words (word ++ text) = word :: words text := by
  cases text with
  | nil => rw [List.append_nil, words_word hword, words_nil]
  | cons c text =>
    have hblank : isBlank c = true := hends c rfl
    rw [words_cons hblank, words, words, List.splitOnP_append_cons_of_forall_mem hword.free c hblank]
    simp [hword.ne_nil]

theorem words_eq_of_madeOf {text : List Char} {found : List (List Char)} (h : MadeOf text found) :
    words text = found := by
  induction h with
  | nil => exact words_nil
  | blank hblank _ ih => rw [words_cons hblank, ih]
  | word hword hends _ ih => rw [words_append hword hends, ih]

theorem madeOf_words (text : List Char) : MadeOf text (words text) := by
  -- Past a word there is less text, but not one character less.
  induction hlength : text.length using Nat.strongRecOn generalizing text with
  | ind length ih =>
    subst hlength
    cases text with
    | nil => exact words_nil ▸ .nil
    | cons c rest =>
      cases hblank : isBlank c with
      | true =>
        rw [words_cons hblank]
        exact .blank hblank (ih rest.length (by simp) rest rfl)
      | false =>
        obtain ⟨word, back, htext, hword, hends⟩ : ∃ word back, c :: rest = word ++ back ∧ IsWord word ∧
            ∀ d ∈ back.head?, isBlank d = true := by
          refine ⟨(c :: rest).takeWhile (!isBlank ·), (c :: rest).dropWhile (!isBlank ·),
            List.takeWhile_append_dropWhile.symm, ⟨by simp [hblank], fun d hd => ?_⟩, fun d hd => ?_⟩
          · simpa using List.all_eq_true.1 List.all_takeWhile d hd
          · have := List.head?_dropWhile_not (p := (!isBlank ·)) (l := c :: rest)
            rw [Option.mem_def.1 hd] at this
            simpa using this
        rw [htext, words_append hword hends]
        refine .word hword hends (ih back.length ?_ back rfl)
        have := List.length_pos_iff.2 hword.ne_nil
        rw [htext, List.length_append]
        omega

theorem words_eq_iff {text : List Char} {found : List (List Char)} : words text = found ↔ MadeOf text found :=
  ⟨fun h => h ▸ madeOf_words text, words_eq_of_madeOf⟩

/-- Blanks at the end of a text are in none of its words. -/
theorem words_append_blank (text : List Char) {c : Char} (hblank : isBlank c = true) :
    words (text ++ [c]) = words text := by
  have hmade : ∀ {found}, MadeOf text found → MadeOf (text ++ [c]) found := by
    intro found hfound
    induction hfound with
    | nil => exact .blank hblank .nil
    | blank hfirst _ ih => exact .blank hfirst ih
    | @word word text words hword hends _ ih =>
      rw [List.append_assoc]
      refine .word hword (fun d hd => ?_) ih
      cases text with
      | nil =>
        obtain rfl : c = d := by simpa using hd
        exact hblank
      | cons e text => exact hends d (by simpa using hd)
  exact words_eq_iff.2 (hmade (madeOf_words text))

/-! ## Lines -/

/-- The text is these lines, each with a line feed behind it unless it is a last line that is not empty. -/
inductive Lined : List Char → List (List Char) → Prop
  | nil : Lined [] []
  | last {line : List Char} : line ≠ [] → '\n' ∉ line → Lined line [line]
  | line {line text : List Char} {lines : List (List Char)} :
    '\n' ∉ line → Lined text lines → Lined (line ++ '\n' :: text) (line :: lines)

theorem lines_last {line : List Char} (hne : line ≠ []) (hfree : '\n' ∉ line) : lines line = [line] := by
  simp [lines, List.splitOn_eq_singleton hfree, hne]

theorem lines_append {line : List Char} (hfree : '\n' ∉ line) (text : List Char) :
    lines (line ++ '\n' :: text) = line :: lines text := by
  obtain ⟨piece, pieces, hpieces⟩ := List.exists_cons_of_ne_nil (List.splitOn_ne_nil '\n' text)
  have hsplit : (line ++ '\n' :: text).splitOn '\n' = line :: text.splitOn '\n' := by
    rw [List.splitOn_append_cons_self, List.splitOn_eq_singleton hfree, List.singleton_append]
  rw [lines, lines, hsplit, hpieces, List.getLast?_cons_cons, List.dropLast_cons_cons]
  split <;> rfl

theorem lines_eq_of_lined {text : List Char} {found : List (List Char)} (h : Lined text found) :
    lines text = found := by
  induction h with
  | nil => simp [lines, List.splitOn_nil]
  | last hne hfree => exact lines_last hne hfree
  | line hfree _ ih => rw [lines_append hfree, ih]

theorem lined_lines (text : List Char) : Lined text (lines text) := by
  induction hlength : text.length using Nat.strongRecOn generalizing text with
  | ind length ih =>
    subst hlength
    by_cases hmem : '\n' ∈ text
    · obtain ⟨line, back, rfl, hfree⟩ := List.eq_append_cons_of_mem hmem
      rw [lines_append hfree]
      exact .line hfree (ih back.length (by simp; omega) back rfl)
    · by_cases hne : text = []
      · subst hne
        exact lines_eq_of_lined .nil ▸ .nil
      · exact lines_last hne hmem ▸ .last hne hmem

theorem lines_eq_iff {text : List Char} {found : List (List Char)} : lines text = found ↔ Lined text found :=
  ⟨fun h => h ▸ lined_lines text, lines_eq_of_lined⟩

end ClassSandbox.Text
