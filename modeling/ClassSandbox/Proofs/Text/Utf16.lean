import ClassSandbox.Text.Utf16

/-!
# Characters and their units

`ofUtf16?` puts a sequence of units together exactly when it is the sequence of the units of some characters, and
gives these (`ofUtf16?_eq_some_iff`). A character of the basic plane is its own unit, and the units of any other
are a pair of surrogates (`exists_utf16Units`), which no character of the basic plane is (`toNat_range`).
-/

namespace ClassSandbox.Text

/-- No character is a surrogate. -/
theorem toNat_range (c : Char) : c.toNat < 0xD800 ∨ 0xDFFF < c.toNat ∧ c.toNat < 0x110000 :=
  c.valid

theorem toNat_ofNat_char {n : Nat} (h : n < 0xD800 ∨ 0xDFFF < n ∧ n < 0x110000) : (Char.ofNat n).toNat = n := by
  have hvalid : n.isValidChar := h
  rw [Char.ofNat, dif_pos hvalid]
  rfl

theorem isHighSurrogate_iff {unit : UInt16} :
    isHighSurrogate unit = true ↔ 0xD800 ≤ unit.toNat ∧ unit.toNat < 0xDC00 := by
  simp [isHighSurrogate, UInt16.le_iff_toNat_le, UInt16.lt_iff_toNat_lt]

theorem isLowSurrogate_iff {unit : UInt16} :
    isLowSurrogate unit = true ↔ 0xDC00 ≤ unit.toNat ∧ unit.toNat < 0xE000 := by
  simp [isLowSurrogate, UInt16.le_iff_toNat_le, UInt16.lt_iff_toNat_lt]

theorem ofUtf16Loop?_unit {unit : UInt16} (hplain : unit.toNat < 0xD800 ∨ 0xDFFF < unit.toNat)
    (rest : List UInt16) (seen : List Char) :
    ofUtf16Loop? (unit :: rest) seen = ofUtf16Loop? rest (Char.ofNat unit.toNat :: seen) := by
  rw [ofUtf16Loop?.eq_def]
  dsimp only
  rw [if_neg, if_neg]
  · rw [isLowSurrogate_iff]
    omega
  · rw [isHighSurrogate_iff]
    omega

theorem ofUtf16Loop?_pair {high low : UInt16} (hhigh : isHighSurrogate high = true)
    (hlow : isLowSurrogate low = true) (rest : List UInt16) (seen : List Char) :
    ofUtf16Loop? (high :: low :: rest) seen = ofUtf16Loop? rest (ofSurrogates high low :: seen) := by
  rw [ofUtf16Loop?.eq_def]
  dsimp only
  rw [if_pos hhigh, if_pos hlow]

theorem utf16Units_ofNat {unit : UInt16} (hplain : unit.toNat < 0xD800 ∨ 0xDFFF < unit.toNat) :
    utf16Units (Char.ofNat unit.toNat) = [unit] := by
  have hlt := unit.toNat_lt
  have hchar : (Char.ofNat unit.toNat).toNat = unit.toNat := toNat_ofNat_char (by omega)
  simp [utf16Units, hchar, hlt]

theorem utf16Units_ofSurrogates {high low : UInt16} (hhigh : isHighSurrogate high = true)
    (hlow : isLowSurrogate low = true) : utf16Units (ofSurrogates high low) = [high, low] := by
  rw [isHighSurrogate_iff] at hhigh
  rw [isLowSurrogate_iff] at hlow
  have hchar : (ofSurrogates high low).toNat =
      0x10000 + (high.toNat - 0xD800) * 0x400 + (low.toNat - 0xDC00) := toNat_ofNat_char (by omega)
  have hfirst : UInt16.ofNat (0xD800 + ((ofSurrogates high low).toNat - 0x10000) / 0x400) = high := by
    rw [show 0xD800 + ((ofSurrogates high low).toNat - 0x10000) / 0x400 = high.toNat by omega,
      UInt16.ofNat_toNat]
  have hsecond : UInt16.ofNat (0xDC00 + ((ofSurrogates high low).toNat - 0x10000) % 0x400) = low := by
    rw [show 0xDC00 + ((ofSurrogates high low).toNat - 0x10000) % 0x400 = low.toNat by omega,
      UInt16.ofNat_toNat]
  have hwide : ¬ (ofSurrogates high low).toNat < 0x10000 := by omega
  simp only [utf16Units, if_neg hwide, hfirst, hsecond]

/-- The units of a character above the basic plane are a pair of surrogates. -/
theorem exists_utf16Units {c : Char} (hwide : ¬ c.toNat < 0x10000) :
    ∃ high low, utf16Units c = [high, low] ∧ isHighSurrogate high = true ∧ isLowSurrogate low = true ∧
      ofSurrogates high low = c := by
  have hrange := toNat_range c
  have hhigh : (UInt16.ofNat (0xD800 + (c.toNat - 0x10000) / 0x400)).toNat =
      0xD800 + (c.toNat - 0x10000) / 0x400 := UInt16.toNat_ofNat_of_lt' (by simp only [UInt16.size]; omega)
  have hlow : (UInt16.ofNat (0xDC00 + (c.toNat - 0x10000) % 0x400)).toNat =
      0xDC00 + (c.toNat - 0x10000) % 0x400 := UInt16.toNat_ofNat_of_lt' (by simp only [UInt16.size]; omega)
  refine ⟨_, _, if_neg hwide, isHighSurrogate_iff.2 ?_, isLowSurrogate_iff.2 ?_, ?_⟩
  · rw [hhigh]
    omega
  · rw [hlow]
    omega
  · have hsum : 0x10000 + (0xD800 + (c.toNat - 0x10000) / 0x400 - 0xD800) * 0x400 +
        (0xDC00 + (c.toNat - 0x10000) % 0x400 - 0xDC00) = c.toNat := by omega
    rw [ofSurrogates, hhigh, hlow, hsum, Char.ofNat_toNat]

theorem ofUtf16Loop?_utf16Units (c : Char) (rest : List UInt16) (seen : List Char) :
    ofUtf16Loop? (utf16Units c ++ rest) seen = ofUtf16Loop? rest (c :: seen) := by
  by_cases hbasic : c.toNat < 0x10000
  · have hunits : utf16Units c = [UInt16.ofNat c.toNat] := if_pos hbasic
    have hunit : (UInt16.ofNat c.toNat).toNat = c.toNat := UInt16.toNat_ofNat_of_lt' hbasic
    have hplain := toNat_range c
    rw [hunits, List.singleton_append, ofUtf16Loop?_unit (by omega), hunit, Char.ofNat_toNat]
  · obtain ⟨high, low, hunits, hhigh, hlow, hback⟩ := exists_utf16Units hbasic
    rw [hunits, List.cons_append, List.singleton_append, ofUtf16Loop?_pair hhigh hlow, hback]

theorem ofUtf16Loop?_eq_some_iff {units : List UInt16} {seen chars : List Char} :
    ofUtf16Loop? units seen = some chars ↔
      ∃ more, chars = seen.reverse ++ more ∧ more.flatMap utf16Units = units := by
  constructor
  · intro h
    fun_induction ofUtf16Loop? units seen with
    | case1 seen =>
      cases h
      exact ⟨[], by simp⟩
    | case2 => cases h
    | case3 high seen hhigh low rest hlow ih =>
      obtain ⟨more, rfl, rfl⟩ := ih h
      exact ⟨ofSurrogates high low :: more, by simp, by simp [utf16Units_ofSurrogates hhigh hlow]⟩
    | case4 => cases h
    | case5 => cases h
    | case6 unit rest seen hhigh hlow ih =>
      obtain ⟨more, rfl, rfl⟩ := ih h
      rw [isHighSurrogate_iff] at hhigh
      rw [isLowSurrogate_iff] at hlow
      have hplain : unit.toNat < 0xD800 ∨ 0xDFFF < unit.toNat := by omega
      exact ⟨Char.ofNat unit.toNat :: more, by simp, by simp [utf16Units_ofNat hplain]⟩
  · rintro ⟨more, rfl, rfl⟩
    induction more generalizing seen with
    | nil => simp [ofUtf16Loop?]
    | cons c more ih =>
      rw [List.flatMap_cons, ofUtf16Loop?_utf16Units, ih]
      simp

/-- Units are put together to the characters of which they are the units. -/
theorem ofUtf16?_eq_some_iff {units : List UInt16} {chars : List Char} :
    ofUtf16? units = some chars ↔ chars.flatMap utf16Units = units := by
  rw [ofUtf16?, ofUtf16Loop?_eq_some_iff]
  simp

end ClassSandbox.Text
