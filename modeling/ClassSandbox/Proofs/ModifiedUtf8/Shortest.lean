import ClassSandbox.Proofs.ModifiedUtf8

/-!
# The shortest form of a text

Decoding accepts longer forms of a unit than `encode` writes. A text that was read is written with the same bytes
exactly if no unit in them took more than it needs (`encode_eq_iff_of_decode`).
-/

namespace ClassSandbox

/-- Parts that have not grown are together the same only if each is. -/
theorem append_eq_append_iff_of_length_le {α : Type} {front back front' back' : List α}
    (hfront : front.length ≤ front'.length) (hback : back.length ≤ back'.length) :
    front ++ back = front' ++ back' ↔ front = front' ∧ back = back' := by
  constructor
  · intro h
    have hlength := congrArg List.length h
    rw [List.length_append, List.length_append] at hlength
    exact List.append_inj h (by omega)
  · rintro ⟨rfl, rfl⟩
    rfl

namespace ModifiedUtf8

/-- No unit takes more bytes than it needs. Two bytes are for zero and for units from 128 on, and three are for units
from 2048 on. -/
def isShortest : Bytes → Bool
  | [] => true
  | byte :: rest =>
    if byte < 0x80 then isShortest rest
    else
      match rest with
      | [] => true
      | next :: rest =>
        if byte < 0xE0 then
          (decide (0xC2 ≤ byte) || (byte == 0xC0 && next == 0x80)) && isShortest rest
        else
          match rest with
          | [] => true
          | _ :: rest => (byte != 0xE0 || decide (0xA0 ≤ next)) && isShortest rest

/-! ## Units -/

theorem encodeUnit_one {byte : UInt8} (hne : byte ≠ 0) (hlt : byte < 0x80) : encodeUnit byte.toUInt16 = [byte] := by
  rw [ne_eq, ← UInt8.toNat_inj] at hne
  rw [UInt8.lt_iff_toNat_lt] at hlt
  rw [encodeUnit, UInt8.toNat_toUInt16, if_pos ⟨hne, hlt⟩, UInt8.ofNat_toNat]

theorem encodeUnit_two_iff {byte : UInt8} (h : 0xC0 ≤ byte.toNat ∧ byte.toNat < 0xE0) {low : Nat} (hlow : low < 64) :
    encodeUnit (UInt16.ofNat ((byte.toNat - 0xC0) * 64 + low)) = [byte, UInt8.ofNat (0x80 + low)] ↔
      0xC2 ≤ byte.toNat ∨ byte.toNat = 0xC0 ∧ low = 0 := by
  have hunit : (UInt16.ofNat ((byte.toNat - 0xC0) * 64 + low)).toNat = (byte.toNat - 0xC0) * 64 + low :=
    UInt16.toNat_ofNat_of_lt' (by simp only [UInt16.size]; omega)
  have hdiv : ((byte.toNat - 0xC0) * 64 + low) / 64 = byte.toNat - 0xC0 := by omega
  have hmod : ((byte.toNat - 0xC0) * 64 + low) % 64 = low := by omega
  unfold encodeUnit
  simp only [hunit, hdiv, hmod]
  split
  · simp only [List.cons.injEq, List.ne_cons_self, and_false, false_iff]
    omega
  · rw [if_pos (by omega), Nat.add_sub_cancel' h.1, UInt8.ofNat_toNat]
    simp only [true_iff]
    omega

theorem encodeUnit_three_iff {byte : UInt8} (h : 0xE0 ≤ byte.toNat ∧ byte.toNat < 0xF0) {middle low : Nat}
    (hmiddle : middle < 64) (hlow : low < 64) :
    encodeUnit (UInt16.ofNat ((byte.toNat - 0xE0) * 4096 + middle * 64 + low)) =
        [byte, UInt8.ofNat (0x80 + middle), UInt8.ofNat (0x80 + low)] ↔ byte.toNat ≠ 0xE0 ∨ 0x20 ≤ middle := by
  have hunit : (UInt16.ofNat ((byte.toNat - 0xE0) * 4096 + middle * 64 + low)).toNat =
      (byte.toNat - 0xE0) * 4096 + middle * 64 + low :=
    UInt16.toNat_ofNat_of_lt' (by simp only [UInt16.size]; omega)
  have hhigh : ((byte.toNat - 0xE0) * 4096 + middle * 64 + low) / 4096 = byte.toNat - 0xE0 := by omega
  have hdiv : ((byte.toNat - 0xE0) * 4096 + middle * 64 + low) / 64 % 64 = middle := by omega
  have hmod : ((byte.toNat - 0xE0) * 4096 + middle * 64 + low) % 64 = low := by omega
  unfold encodeUnit
  simp only [hunit, hhigh, hdiv, hmod]
  split
  · simp only [List.cons.injEq, reduceCtorEq, and_false, false_iff]
    omega
  · split
    · simp only [List.cons.injEq, reduceCtorEq, and_false, false_iff]
      omega
    · rw [Nat.add_sub_cancel' h.1, UInt8.ofNat_toNat]
      simp only [true_iff]
      omega

/-! ## The form of the bytes -/

theorem isShortest_one {byte : UInt8} (h : byte < 0x80) (rest : Bytes) :
    isShortest (byte :: rest) = isShortest rest := by
  rw [isShortest.eq_def]
  exact if_pos h

theorem isShortest_two_iff {byte : UInt8} (h : 0xC0 ≤ byte.toNat ∧ byte.toNat < 0xE0) {low : Nat} (hlow : low < 64)
    (rest : Bytes) : isShortest (byte :: UInt8.ofNat (0x80 + low) :: rest) = true ↔
      (0xC2 ≤ byte.toNat ∨ byte.toNat = 0xC0 ∧ low = 0) ∧ isShortest rest = true := by
  have hlead : ¬ byte < 0x80 := by
    rw [UInt8.lt_iff_toNat_lt]
    exact Nat.not_lt.2 (Nat.le_trans (by decide) h.1)
  have htwo : byte < 0xE0 := UInt8.lt_iff_toNat_lt.2 h.2
  have hnext : (UInt8.ofNat (0x80 + low)).toNat = 0x80 + low := toNat_ofNat_byte (by omega)
  have hzero : 0x80 + low = 0x80 ↔ low = 0 := by omega
  rw [isShortest.eq_def]
  simp only [if_neg hlead, if_pos htwo, Bool.and_eq_true, Bool.or_eq_true, decide_eq_true_eq, beq_iff_eq,
    UInt8.le_iff_toNat_le, ← UInt8.toNat_inj, hnext, UInt8.reduceToNat, hzero]

theorem isShortest_three_iff {byte : UInt8} (h : 0xE0 ≤ byte.toNat) {middle : Nat} (hmiddle : middle < 64)
    (last : UInt8) (rest : Bytes) : isShortest (byte :: UInt8.ofNat (0x80 + middle) :: last :: rest) = true ↔
      (byte.toNat ≠ 0xE0 ∨ 0x20 ≤ middle) ∧ isShortest rest = true := by
  have hlead : ¬ byte < 0x80 := by
    rw [UInt8.lt_iff_toNat_lt]
    exact Nat.not_lt.2 (Nat.le_trans (by decide) h)
  have hthree : ¬ byte < 0xE0 := by
    rw [UInt8.lt_iff_toNat_lt]
    exact Nat.not_lt.2 h
  have hnext : (UInt8.ofNat (0x80 + middle)).toNat = 0x80 + middle := toNat_ofNat_byte (by omega)
  have hlarge : 0xA0 ≤ 0x80 + middle ↔ 0x20 ≤ middle := by omega
  rw [isShortest.eq_def]
  simp only [if_neg hlead, if_neg hthree, Bool.and_eq_true, Bool.or_eq_true, decide_eq_true_eq, bne_iff_ne, ne_eq,
    UInt8.le_iff_toNat_le, ← UInt8.toNat_inj, hnext, UInt8.reduceToNat, hlarge]

/-! ## Texts -/

/-- The units after those that were seen, without the first of them. -/
theorem exists_of_decodeUnits_cons {position : Nat} {bytes : Bytes} {unit : UInt16} {seen more : List UInt16}
    (h : decodeUnits position bytes (unit :: seen) = .ok (seen.reverse ++ more)) :
    ∃ others, more = unit :: others ∧ (others.flatMap encodeUnit).length ≤ bytes.length := by
  obtain ⟨others, hsplit, hle⟩ := length_le_of_decodeUnits h
  rw [List.reverse_cons, List.append_assoc, List.singleton_append] at hsplit
  exact ⟨others, List.append_cancel_left hsplit, hle⟩

/-- The bytes of some units are those that `encode` writes for them exactly if they are in the shortest form. -/
theorem encode_eq_iff_of_decodeUnits {position : Nat} {bytes : Bytes} {seen more : List UInt16}
    (h : decodeUnits position bytes seen = .ok (seen.reverse ++ more)) :
    more.flatMap encodeUnit = bytes ↔ isShortest bytes = true := by
  fun_induction decodeUnits position bytes seen generalizing more with
  | case1 position seen =>
    obtain rfl : more = [] := List.self_eq_append_right.1 (Except.ok.inj h)
    simp [isShortest]
  | case2 position seen byte rest hone ih =>
    obtain ⟨others, rfl, hle⟩ := exists_of_decodeUnits_cons h
    have hrest : others.flatMap encodeUnit = rest ↔ isShortest rest = true := ih (by simpa using h)
    rw [List.flatMap_cons, encodeUnit_one hone.1 hone.2, List.singleton_append, List.cons_inj_right, hrest,
      isShortest_one hone.2]
  | case4 position seen byte rest hone htwo low hlow ih =>
    obtain ⟨others, rfl, hle⟩ := exists_of_decodeUnits_cons h
    obtain ⟨hlt, rest, rfl⟩ := exists_of_continuation hlow
    have hrest : others.flatMap encodeUnit = rest ↔ isShortest rest = true := ih (by simpa using h)
    have hlead : 0xC0 ≤ byte.toNat ∧ byte.toNat < 0xE0 := by
      rwa [UInt8.le_iff_toNat_le, UInt8.lt_iff_toNat_lt] at htwo
    have hunit : (encodeUnit (UInt16.ofNat ((byte.toNat - 0xC0) * 64 + low))).length ≤
        [byte, UInt8.ofNat (0x80 + low)].length := by
      refine length_encodeUnit_le_two ?_
      rw [UInt16.toNat_ofNat_of_lt' (by simp only [UInt16.size]; omega)]
      omega
    rw [List.flatMap_cons, isShortest_two_iff hlead hlt, ← encodeUnit_two_iff hlead hlt, ← hrest]
    exact append_eq_append_iff_of_length_le hunit hle
  | case7 position seen byte rest hone htwo hthree middle hmiddle low hlow ih =>
    obtain ⟨others, rfl, hle⟩ := exists_of_decodeUnits_cons h
    obtain ⟨hlt, rest, rfl⟩ := exists_of_continuation hmiddle
    obtain ⟨hlt', rest, rfl⟩ := exists_of_continuation hlow
    have hrest : others.flatMap encodeUnit = rest ↔ isShortest rest = true := ih (by simpa using h)
    have hlead : 0xE0 ≤ byte.toNat ∧ byte.toNat < 0xF0 := by
      rwa [UInt8.le_iff_toNat_le, UInt8.lt_iff_toNat_lt] at hthree
    have hunit : (encodeUnit (UInt16.ofNat ((byte.toNat - 0xE0) * 4096 + middle * 64 + low))).length ≤
        [byte, UInt8.ofNat (0x80 + middle), UInt8.ofNat (0x80 + low)].length := length_encodeUnit_le _
    rw [List.flatMap_cons, isShortest_three_iff hlead.1 hlt, ← encodeUnit_three_iff hlead hlt hlt', ← hrest]
    exact append_eq_append_iff_of_length_le hunit hle
  | _ => cases h

/-- A text is written with the bytes that it was read from exactly if they are in the shortest form. -/
theorem encode_eq_iff_of_decode {bytes : Bytes} {text : String} (h : decode bytes = .ok text) :
    encode text = bytes ↔ isShortest bytes = true := by
  obtain ⟨units, hunits, hencode⟩ := exists_units_of_decode h
  rw [hencode]
  exact encode_eq_iff_of_decodeUnits hunits

end ModifiedUtf8

end ClassSandbox
