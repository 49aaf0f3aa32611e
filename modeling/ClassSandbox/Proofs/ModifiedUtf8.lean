import ClassSandbox.ModifiedUtf8
import ClassSandbox.Proofs.Text.Utf16

/-!
# Modified UTF-8 is read back

What `encode` writes for a unit takes one to three bytes, from which `decodeUnits` has the unit again
(`decodeUnits_encodeUnit`). So a text is read back (`decode_encode`). The other way round the bytes may change,
as decoding accepts longer forms, but their number does not grow (`length_encode_le_of_decode`). The length of
an encoded text is the one that `encodedLength` counts (`encodedLength_eq`).
-/

namespace ClassSandbox.ModifiedUtf8

/-! ## Units -/

theorem toNat_ofNat_byte {n : Nat} (h : n < 256) : (UInt8.ofNat n).toNat = n := UInt8.toNat_ofNat_of_lt' h

theorem continuation_ofNat {n : Nat} (h : n < 64) (position : Nat) (rest : Bytes) :
    continuation position (UInt8.ofNat (0x80 + n) :: rest) = .ok n := by
  have hbyte := toNat_ofNat_byte (n := 0x80 + n) (by omega)
  have hrange : (0x80 ≤ UInt8.ofNat (0x80 + n) && UInt8.ofNat (0x80 + n) < 0xC0) = true := by
    simp only [Bool.and_eq_true, decide_eq_true_eq, UInt8.le_iff_toNat_le, UInt8.lt_iff_toNat_lt, hbyte]
    exact ⟨Nat.le_add_right _ _, Nat.add_lt_add_left h _⟩
  rw [continuation, if_pos hrange, hbyte, Nat.add_sub_cancel_left]

theorem decodeUnits_one {byte : UInt8} (h : 0 < byte.toNat ∧ byte.toNat < 0x80) (position : Nat) (rest : Bytes)
    (seen : List UInt16) :
    decodeUnits position (byte :: rest) seen = decodeUnits (position + 1) rest (byte.toUInt16 :: seen) := by
  rw [decodeUnits, if_pos]
  rw [ne_eq, ← UInt8.toNat_inj, UInt8.lt_iff_toNat_lt]
  exact ⟨Nat.ne_of_gt h.1, h.2⟩

theorem decodeUnits_two {byte : UInt8} (h : 0xC0 ≤ byte.toNat ∧ byte.toNat < 0xE0) {n : Nat} (hn : n < 64)
    (position : Nat) (rest : Bytes) (seen : List UInt16) :
    decodeUnits position (byte :: UInt8.ofNat (0x80 + n) :: rest) seen =
      decodeUnits (position + 2) rest (UInt16.ofNat ((byte.toNat - 0xC0) * 64 + n) :: seen) := by
  rw [decodeUnits, if_neg, if_pos, continuation_ofNat hn]
  · rfl
  · rwa [UInt8.le_iff_toNat_le, UInt8.lt_iff_toNat_lt]
  · rw [UInt8.lt_iff_toNat_lt]
    exact fun hplain => Nat.not_lt.2 h.1 (Nat.lt_trans hplain.2 (by decide))

theorem decodeUnits_three {byte : UInt8} (h : 0xE0 ≤ byte.toNat ∧ byte.toNat < 0xF0) {middle low : Nat}
    (hmiddle : middle < 64) (hlow : low < 64) (position : Nat) (rest : Bytes) (seen : List UInt16) :
    decodeUnits position (byte :: UInt8.ofNat (0x80 + middle) :: UInt8.ofNat (0x80 + low) :: rest) seen =
      decodeUnits (position + 3) rest
        (UInt16.ofNat ((byte.toNat - 0xE0) * 4096 + middle * 64 + low) :: seen) := by
  have hthird : continuation (position + 2)
      ((UInt8.ofNat (0x80 + middle) :: UInt8.ofNat (0x80 + low) :: rest).drop 1) = .ok low :=
    continuation_ofNat hlow _ _
  rw [decodeUnits, if_neg, if_neg, if_pos, continuation_ofNat hmiddle]
  · simp only [hthird]
    rfl
  · rwa [UInt8.le_iff_toNat_le, UInt8.lt_iff_toNat_lt]
  · rw [UInt8.lt_iff_toNat_lt]
    exact fun htwo => Nat.not_lt.2 h.1 htwo.2
  · rw [UInt8.lt_iff_toNat_lt]
    exact fun hplain => Nat.not_lt.2 h.1 (Nat.lt_trans hplain.2 (by decide))

/-- What `encode` writes for a unit is read back. -/
theorem decodeUnits_encodeUnit (position : Nat) (unit : UInt16) (rest : Bytes) (seen : List UInt16) :
    decodeUnits position (encodeUnit unit ++ rest) seen =
      decodeUnits (position + (encodeUnit unit).length) rest (unit :: seen) := by
  have hlt : unit.toNat < 65536 := unit.toNat_lt
  unfold encodeUnit
  dsimp only
  split
  · rename_i hone
    have hbyte := toNat_ofNat_byte (n := unit.toNat) (by omega)
    have hback : (UInt8.ofNat unit.toNat).toUInt16 = unit := by
      rw [← UInt16.toNat_inj, UInt8.toNat_toUInt16, hbyte]
    rw [List.singleton_append, decodeUnits_one (by omega), hback]
    rfl
  · split
    · have hbyte := toNat_ofNat_byte (n := 0xC0 + unit.toNat / 64) (by omega)
      have hsum : (0xC0 + unit.toNat / 64 - 0xC0) * 64 + unit.toNat % 64 = unit.toNat := by omega
      rw [List.cons_append, List.singleton_append, decodeUnits_two (by omega) (by omega), hbyte, hsum,
        UInt16.ofNat_toNat]
      rfl
    · have hbyte := toNat_ofNat_byte (n := 0xE0 + unit.toNat / 4096) (by omega)
      have hsum : (0xE0 + unit.toNat / 4096 - 0xE0) * 4096 + unit.toNat / 64 % 64 * 64 + unit.toNat % 64 =
          unit.toNat := by omega
      rw [List.cons_append, List.cons_append, List.singleton_append,
        decodeUnits_three (by omega) (by omega) (by omega), hbyte, hsum, UInt16.ofNat_toNat]
      rfl

theorem decodeUnits_flatMap (position : Nat) (units seen : List UInt16) :
    decodeUnits position (units.flatMap encodeUnit) seen = .ok (seen.reverse ++ units) := by
  induction units generalizing position seen with
  | nil => simp [decodeUnits]
  | cons unit units ih => simp [decodeUnits_encodeUnit, ih]

theorem length_encodeUnit (unit : UInt16) :
    (encodeUnit unit).length =
      if 0 < unit.toNat ∧ unit.toNat < 0x80 then 1 else if unit.toNat < 0x800 then 2 else 3 := by
  unfold encodeUnit
  simp only [← Nat.pos_iff_ne_zero]
  split
  · rfl
  · split <;> rfl

theorem length_encodeUnit_le (unit : UInt16) : (encodeUnit unit).length ≤ 3 := by
  rw [length_encodeUnit]
  split
  · decide
  · split <;> decide

theorem length_encodeUnit_le_two {unit : UInt16} (h : unit.toNat < 0x800) : (encodeUnit unit).length ≤ 2 := by
  rw [length_encodeUnit, if_pos h]
  split <;> decide

theorem exists_of_continuation {position n : Nat} {bytes : Bytes} (h : continuation position bytes = .ok n) :
    n < 64 ∧ ∃ rest, bytes = UInt8.ofNat (0x80 + n) :: rest := by
  unfold continuation at h
  split at h
  · cases h
  · split at h
    · rename_i byte rest hrange
      obtain rfl := Except.ok.inj h
      simp only [Bool.and_eq_true, decide_eq_true_eq, UInt8.le_iff_toNat_le, UInt8.lt_iff_toNat_lt] at hrange
      have hlow : 0x80 ≤ byte.toNat := hrange.1
      have hhigh : byte.toNat < 0xC0 := hrange.2
      refine ⟨by omega, rest, ?_⟩
      rw [Nat.add_sub_cancel' hlow, UInt8.ofNat_toNat]
    · cases h

theorem lt_of_continuation {position n : Nat} {bytes : Bytes} (h : continuation position bytes = .ok n) :
    n < 64 ∧ 0 < bytes.length := by
  obtain ⟨hlt, rest, rfl⟩ := exists_of_continuation h
  exact ⟨hlt, Nat.succ_pos _⟩

/-- No unit was written shorter than `encode` writes it. -/
theorem length_le_of_decodeUnits {position : Nat} {bytes : Bytes} {seen units : List UInt16}
    (h : decodeUnits position bytes seen = .ok units) :
    ∃ more, units = seen.reverse ++ more ∧ (more.flatMap encodeUnit).length ≤ bytes.length := by
  fun_induction decodeUnits position bytes seen with
  | case1 position seen =>
    cases h
    exact ⟨[], by simp⟩
  | case2 position seen byte rest hone ih =>
    obtain ⟨more, rfl, hle⟩ := ih h
    rw [ne_eq, ← UInt8.toNat_inj, UInt8.lt_iff_toNat_lt] at hone
    have hlength : (encodeUnit byte.toUInt16).length = 1 := by
      rw [length_encodeUnit, UInt8.toNat_toUInt16, if_pos ⟨Nat.pos_of_ne_zero hone.1, hone.2⟩]
    refine ⟨byte.toUInt16 :: more, by simp, ?_⟩
    rw [List.flatMap_cons, List.length_append, List.length_cons]
    omega
  | case4 position seen byte rest hone htwo low hlow ih =>
    obtain ⟨more, rfl, hle⟩ := ih h
    rw [UInt8.le_iff_toNat_le, UInt8.lt_iff_toNat_lt] at htwo
    obtain ⟨hlt, hpos⟩ := lt_of_continuation hlow
    have hlead : byte.toNat < 0xE0 := htwo.2
    have hlength : (encodeUnit (UInt16.ofNat ((byte.toNat - 0xC0) * 64 + low))).length ≤ 2 := by
      refine length_encodeUnit_le_two ?_
      rw [UInt16.toNat_ofNat_of_lt' (by simp only [UInt16.size]; omega)]
      omega
    refine ⟨UInt16.ofNat ((byte.toNat - 0xC0) * 64 + low) :: more, by simp, ?_⟩
    rw [List.length_drop] at hle
    rw [List.flatMap_cons, List.length_append, List.length_cons]
    omega
  | case7 position seen byte rest hone htwo hthree middle hmiddle low hlow ih =>
    obtain ⟨more, rfl, hle⟩ := ih h
    obtain ⟨-, hpos⟩ := lt_of_continuation hlow
    rw [List.length_drop] at hpos
    have hlength := length_encodeUnit_le (UInt16.ofNat ((byte.toNat - 0xE0) * 4096 + middle * 64 + low))
    refine ⟨UInt16.ofNat ((byte.toNat - 0xE0) * 4096 + middle * 64 + low) :: more, by simp, ?_⟩
    rw [List.length_drop] at hle
    rw [List.flatMap_cons, List.length_append, List.length_cons]
    omega
  | _ => cases h

/-! ## Texts -/

theorem decode_encode (text : String) : decode (encode text) = .ok text := by
  unfold decode encode
  rw [decodeUnits_flatMap]
  simp [Text.ofUtf16?_eq_some_iff.2 rfl]

/-- The bytes of a text are read as units, which are written for it. -/
theorem exists_units_of_decode {bytes : Bytes} {text : String} (h : decode bytes = .ok text) :
    ∃ units, decodeUnits 0 bytes [] = .ok units ∧ encode text = units.flatMap encodeUnit := by
  unfold decode at h
  split at h
  · cases h
  · rename_i units hunits
    split at h
    · cases h
    · rename_i chars hchars
      cases h
      rw [Text.ofUtf16?_eq_some_iff] at hchars
      exact ⟨units, hunits, by rw [encode, String.toList_ofList, hchars]⟩

/-- A text that was read takes no more bytes when it is written again. -/
theorem length_encode_le_of_decode {bytes : Bytes} {text : String} (h : decode bytes = .ok text) :
    (encode text).length ≤ bytes.length := by
  obtain ⟨units, hunits, hencode⟩ := exists_units_of_decode h
  obtain ⟨more, rfl, hle⟩ := length_le_of_decodeUnits hunits
  rw [hencode]
  exact hle

theorem utf8Size_eq (c : Char) :
    c.utf8Size =
      if c.toNat < 0x80 then 1 else if c.toNat < 0x800 then 2 else if c.toNat < 0x10000 then 3 else 4 := by
  have hle : ∀ n : UInt32, c.val ≤ n ↔ c.toNat < n.toNat + 1 := fun n => by
    rw [UInt32.le_iff_toNat_le, Nat.lt_succ_iff]
    rfl
  unfold Char.utf8Size
  simp only [hle]
  rfl

theorem length_encode_char (c : Char) : ((Text.utf16Units c).flatMap encodeUnit).length = charLength c := by
  have hnul : c = '\x00' ↔ c.toNat = 0 := ⟨fun h => h ▸ rfl, fun h => Char.toNat_inj.1 h⟩
  unfold charLength
  simp only [utf8Size_eq, hnul]
  by_cases hbasic : c.toNat < 0x10000
  · have hunits : Text.utf16Units c = [UInt16.ofNat c.toNat] := if_pos hbasic
    have hunit : (UInt16.ofNat c.toNat).toNat = c.toNat := UInt16.toNat_ofNat_of_lt' hbasic
    rw [hunits, List.flatMap_singleton, length_encodeUnit, hunit]
    grind
  · obtain ⟨high, low, hunits, hhigh, hlow, -⟩ := Text.exists_utf16Units hbasic
    rw [Text.isHighSurrogate_iff] at hhigh
    rw [Text.isLowSurrogate_iff] at hlow
    rw [hunits, List.flatMap_cons, List.flatMap_singleton, List.length_append, length_encodeUnit,
      length_encodeUnit]
    grind

theorem encodedLength_eq (text : String) : encodedLength text = (encode text).length := by
  unfold encodedLength encode
  induction text.toList with
  | nil => rfl
  | cons c rest ih =>
    rw [List.foldr_cons, ih, List.flatMap_cons, List.flatMap_append, List.length_append, length_encode_char]

end ClassSandbox.ModifiedUtf8
