import Mathlib.Algebra.Group.Nat.Defs
import Mathlib.Data.List.Basic
import ClassSandbox.Proofs.ModifiedUtf8

/-!
# The bits of a text

`charBytes` takes the bytes of a character from the bits of its code point, and makes no units on the way. The bytes
are those that `encode` writes (`encode_eq_flatMap_charBytes`), also for a pair of surrogates, where the plane of the
character is counted from one on. With this all is said about what is written: it is read back, its length is the one
that was counted, and it has no zero byte and none that begins a form of four bytes (`encode_roundTrip`).
-/

namespace ClassSandbox.ModifiedUtf8

/-- The bytes of a character, by the bits of its code point. The bits above the lowest sixteen are one more than what
the first surrogate has of them. -/
def charBytes (c : Char) : Bytes :=
  let code := c.val
  match if c = '\x00' then 2 else c.utf8Size with
  | 1 => [code.toUInt8]
  | 2 => [(code >>> 6 &&& 0x1F).toUInt8 ||| 0xC0, (code &&& 0x3F).toUInt8 ||| 0x80]
  | 3 => [(code >>> 12 &&& 0x0F).toUInt8 ||| 0xE0, (code >>> 6 &&& 0x3F).toUInt8 ||| 0x80,
      (code &&& 0x3F).toUInt8 ||| 0x80]
  | _ => [0xED, ((code >>> 16 &&& 0x0F).toUInt8 - 1) &&& 0x0F ||| 0xA0, (code >>> 10 &&& 0x3F).toUInt8 ||| 0x80,
      0xED, (code >>> 6 &&& 0x0F).toUInt8 ||| 0xB0, (code &&& 0x3F).toUInt8 ||| 0x80]

/-! ## Bits -/

theorem toNat_shiftRight (code : UInt32) {shift : UInt32} (hshift : shift.toNat < 32) :
    (code >>> shift).toNat = code.toNat / 2 ^ shift.toNat := by
  rw [UInt32.toNat_shiftRight, Nat.mod_eq_of_lt hshift, Nat.shiftRight_eq_div_pow]

/-- A mask takes the lowest bits. -/
theorem toUInt8_and (width : Nat) {mask : UInt32} (hmask : mask.toNat = 2 ^ width - 1) (code : UInt32) :
    (code &&& mask).toUInt8 = UInt8.ofNat (code.toNat % 2 ^ width) := by
  rw [← UInt8.toNat_inj, UInt32.toNat_toUInt8, UInt32.toNat_and, hmask, Nat.and_two_pow_sub_one_eq_mod,
    UInt8.toNat_ofNat']

/-- A mark above the lowest bits is added to them. -/
theorem marked_eq (width high : Nat) {mask : UInt32} {mark : UInt8} (hmask : mask.toNat = 2 ^ width - 1)
    (hmark : mark.toNat = 2 ^ width * high) (hfits : mark.toNat + 2 ^ width ≤ 256) (code : UInt32) :
    (code &&& mask).toUInt8 ||| mark = UInt8.ofNat (mark.toNat + code.toNat % 2 ^ width) := by
  have hlt : code.toNat % 2 ^ width < 2 ^ width := Nat.mod_lt _ (Nat.two_pow_pos width)
  rw [toUInt8_and width hmask, ← UInt8.toNat_inj, UInt8.toNat_or, toNat_ofNat_byte (by omega),
    toNat_ofNat_byte (by omega), Nat.or_comm, hmark, Nat.two_pow_add_eq_or_of_lt hlt]

theorem continuation_eq (code : UInt32) :
    (code &&& 0x3F).toUInt8 ||| 0x80 = UInt8.ofNat (0x80 + code.toNat % 64) :=
  marked_eq 6 2 rfl rfl (by decide) code

/-- The planes above the basic one are counted from zero on. -/
theorem plane_eq {code : UInt32} (h : 0 < code.toNat ∧ code.toNat < 17) :
    ((code &&& 0x0F).toUInt8 - 1) &&& 0x0F ||| 0xA0 = UInt8.ofNat (0xA0 + (code.toNat - 1)) := by
  have hplane : ∀ plane < 17, 0 < plane →
      (UInt8.ofNat (plane % 2 ^ 4) - 1) &&& 0x0F ||| 0xA0 = UInt8.ofNat (0xA0 + (plane - 1)) := by decide
  rw [toUInt8_and 4 rfl, hplane _ h.2 h.1]

/-! ## Characters -/

theorem formLength_eq {c : Char} (hbasic : c.toNat < 0x10000) :
    (if c = '\x00' then 2 else c.utf8Size) = (encodeUnit (UInt16.ofNat c.toNat)).length := by
  have hwidth := length_encode_char c
  rw [Text.utf16Units, if_pos hbasic, List.flatMap_singleton] at hwidth
  have hsmall : c.utf8Size ≠ 4 := by
    rw [utf8Size_eq, if_pos hbasic]
    split <;> [decide; split <;> decide]
  rw [hwidth, charLength, if_neg hsmall]

theorem charBytes_of_basic {c : Char} (hbasic : c.toNat < 0x10000) :
    charBytes c = encodeUnit (UInt16.ofNat c.toNat) := by
  have hunit : (UInt16.ofNat c.toNat).toNat = c.toNat := UInt16.toNat_ofNat_of_lt' hbasic
  have hcode : c.val.toNat = c.toNat := rfl
  have hsix : (c.val >>> 6).toNat = c.toNat / 64 := toNat_shiftRight c.val (by decide)
  have hsize := formLength_eq hbasic
  unfold encodeUnit at hsize ⊢
  simp only [hunit] at hsize ⊢
  by_cases hone : c.toNat ≠ 0 ∧ c.toNat < 0x80
  · rw [if_pos hone] at hsize ⊢
    simp only [charBytes, hsize]
    rfl
  · rw [if_neg hone] at hsize ⊢
    by_cases htwo : c.toNat < 0x800
    · have hlead : (c.val >>> 6 &&& 0x1F).toUInt8 ||| 0xC0 = UInt8.ofNat (0xC0 + c.toNat / 64 % 32) := by
        rw [marked_eq 5 6 rfl rfl (by decide), hsix]
        rfl
      rw [Nat.mod_eq_of_lt (by omega)] at hlead
      rw [if_pos htwo] at hsize ⊢
      simp only [charBytes, hsize, List.length_cons, List.length_nil, hlead, continuation_eq, hcode]
    · have htwelve : (c.val >>> 12).toNat = c.toNat / 4096 := toNat_shiftRight c.val (by decide)
      have hlead : (c.val >>> 12 &&& 0x0F).toUInt8 ||| 0xE0 = UInt8.ofNat (0xE0 + c.toNat / 4096 % 16) := by
        rw [marked_eq 4 14 rfl rfl (by decide), htwelve]
        rfl
      rw [Nat.mod_eq_of_lt (by omega)] at hlead
      rw [if_neg htwo] at hsize ⊢
      simp only [charBytes, hsize, List.length_cons, List.length_nil, hlead, continuation_eq, hsix, hcode]

/-- The units of a pair begin with the same byte, and the next one tells them apart. -/
theorem encodeUnit_surrogate (mark : Nat) (hmark : mark = 0x20 ∨ mark = 0x30) {n : Nat} (hn : n < 0x400) :
    encodeUnit (UInt16.ofNat (0xD000 + mark * 0x40 + n)) =
      [0xED, UInt8.ofNat (0x80 + (mark + n / 64)), UInt8.ofNat (0x80 + n % 64)] := by
  have hunit : (UInt16.ofNat (0xD000 + mark * 0x40 + n)).toNat = 0xD000 + mark * 0x40 + n :=
    UInt16.toNat_ofNat_of_lt' (by simp only [UInt16.size]; omega)
  have hhigh : (0xD000 + mark * 0x40 + n) / 4096 = 13 := by omega
  have hmiddle : (0xD000 + mark * 0x40 + n) / 64 % 64 = mark + n / 64 := by omega
  have hlow : (0xD000 + mark * 0x40 + n) % 64 = n % 64 := by omega
  unfold encodeUnit
  simp only [hunit]
  rw [if_neg (by omega), if_neg (by omega), hhigh, hmiddle, hlow]
  rfl

theorem charBytes_of_pair {c : Char} (hwide : ¬c.toNat < 0x10000) :
    charBytes c = (Text.utf16Units c).flatMap encodeUnit := by
  have hrange := Text.toNat_range c
  have hcode : c.val.toNat = c.toNat := rfl
  have hsize : (if c = '\x00' then 2 else c.utf8Size) = 4 := by
    have hnul : c ≠ '\x00' := by
      rintro rfl
      exact hwide (by decide)
    rw [if_neg hnul, utf8Size_eq, if_neg (by omega), if_neg (by omega), if_neg hwide]
  have hsix : (c.val >>> 6).toNat = c.toNat / 64 := toNat_shiftRight c.val (by decide)
  have hten : (c.val >>> 10).toNat = c.toNat / 1024 := toNat_shiftRight c.val (by decide)
  have hsixteen : (c.val >>> 16).toNat = c.toNat / 65536 := toNat_shiftRight c.val (by decide)
  have hplane := plane_eq (show 0 < (c.val >>> 16).toNat ∧ (c.val >>> 16).toNat < 17 by omega)
  rw [hsixteen] at hplane
  have hlow : (c.val >>> 6 &&& 0x0F).toUInt8 ||| 0xB0 = UInt8.ofNat (0xB0 + c.toNat / 64 % 16) := by
    rw [marked_eq 4 11 rfl rfl (by decide), hsix]
    rfl
  rw [Text.utf16Units, if_neg hwide, List.flatMap_cons, List.flatMap_singleton,
    encodeUnit_surrogate 0x20 (.inl rfl) (by omega), encodeUnit_surrogate 0x30 (.inr rfl) (by omega)]
  simp only [charBytes, hsize, hplane, hlow, continuation_eq, hten, hcode]
  have hsecond : 0x80 + (0x20 + (c.toNat - 0x10000) / 0x400 / 64) = 0xA0 + (c.toNat / 65536 - 1) := by omega
  have hthird : (c.toNat - 0x10000) / 0x400 % 64 = c.toNat / 1024 % 64 := by omega
  have hfifth : 0x80 + (0x30 + (c.toNat - 0x10000) % 0x400 / 64) = 0xB0 + c.toNat / 64 % 16 := by omega
  have hsixth : (c.toNat - 0x10000) % 0x400 % 64 = c.toNat % 64 := by omega
  rw [hsecond, hthird, hfifth, hsixth]
  rfl

theorem charBytes_eq (c : Char) : charBytes c = (Text.utf16Units c).flatMap encodeUnit := by
  by_cases hbasic : c.toNat < 0x10000
  · rw [Text.utf16Units, if_pos hbasic, List.flatMap_singleton, charBytes_of_basic hbasic]
  · exact charBytes_of_pair hbasic

example : charBytes (Char.ofNat 0x10FFFF) = [0xED, 0xAF, 0xBF, 0xED, 0xBF, 0xBF] := by decide

theorem encode_eq_flatMap_charBytes (text : String) : encode text = text.toList.flatMap charBytes := by
  rw [encode, List.flatMap_assoc]
  exact List.flatMap_congr fun c _ => (charBytes_eq c).symm

/-! ## Texts -/

/-- There is no zero byte, and none that begins a form of four bytes. -/
theorem range_of_mem_encodeUnit {unit : UInt16} {byte : UInt8} (h : byte ∈ encodeUnit unit) :
    byte ≠ 0 ∧ byte < 0xF0 := by
  have hlt := unit.toNat_lt
  have hbyte {n : Nat} (hpos : 0 < n) (hn : n < 0xF0) : UInt8.ofNat n ≠ 0 ∧ UInt8.ofNat n < 0xF0 := by
    rw [ne_eq, ← UInt8.toNat_inj, UInt8.lt_iff_toNat_lt, toNat_ofNat_byte (Nat.lt_trans hn (by decide))]
    exact ⟨Nat.ne_of_gt hpos, hn⟩
  unfold encodeUnit at h
  dsimp only at h
  split at h
  · obtain rfl := List.mem_singleton.1 h
    exact hbyte (by omega) (by omega)
  · split at h
    all_goals simp only [List.mem_cons, List.not_mem_nil, or_false] at h
    · rcases h with rfl | rfl <;> exact hbyte (by omega) (by omega)
    · rcases h with rfl | rfl | rfl <;> exact hbyte (by omega) (by omega)

/-- A text is read back from its bytes, of which there are as many as were counted. None is zero or from 240 on, and
they are made of the bits of the characters. -/
theorem encode_roundTrip (text : String) :
    decode (encode text) = .ok text ∧ (encode text).length = encodedLength text ∧
      (∀ byte ∈ encode text, byte ≠ 0 ∧ byte < 0xF0) ∧ encode text = text.toList.flatMap charBytes := by
  refine ⟨decode_encode text, (encodedLength_eq text).symm, fun byte hmem => ?_, encode_eq_flatMap_charBytes text⟩
  obtain ⟨unit, -, hunit⟩ := List.mem_flatMap.1 hmem
  exact range_of_mem_encodeUnit hunit

end ClassSandbox.ModifiedUtf8
