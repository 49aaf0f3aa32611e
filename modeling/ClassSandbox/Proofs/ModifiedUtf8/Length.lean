import ClassSandbox.Proofs.Constant
import ClassSandbox.Proofs.ModifiedUtf8.Shortest

/-!
# The length of a text that was read

What is decoded is a sequence of forms of one to three bytes, each of which stands for a unit (`exists_forms`). A form
may be longer than the one that `encode` writes for its unit, but never shorter, and among those of one length there is
only one. So a text that was read does not become longer when it is written, and it has the same length only if it has
the same bytes (`encode_noLonger`).
-/

namespace ClassSandbox.ModifiedUtf8

/-- The bytes stand for one unit. A surrogate is a unit as any other. -/
inductive Form : Bytes → UInt16 → Prop where
  | one {byte : UInt8} (hne : byte ≠ 0) (hlt : byte < 0x80) : Form [byte] byte.toUInt16
  | two {byte : UInt8} (hlead : 0xC0 ≤ byte.toNat ∧ byte.toNat < 0xE0) {low : Nat} (hlow : low < 64) :
      Form [byte, UInt8.ofNat (0x80 + low)] (UInt16.ofNat ((byte.toNat - 0xC0) * 64 + low))
  | three {byte : UInt8} (hlead : 0xE0 ≤ byte.toNat ∧ byte.toNat < 0xF0) {middle low : Nat} (hmiddle : middle < 64)
      (hlow : low < 64) :
      Form [byte, UInt8.ofNat (0x80 + middle), UInt8.ofNat (0x80 + low)]
        (UInt16.ofNat ((byte.toNat - 0xE0) * 4096 + middle * 64 + low))

theorem exists_forms {position : Nat} {bytes : Bytes} {seen units : List UInt16}
    (h : decodeUnits position bytes seen = .ok units) :
    ∃ forms more, bytes = forms.flatten ∧ units = seen.reverse ++ more ∧ List.Forall₂ Form forms more := by
  fun_induction decodeUnits position bytes seen with
  | case1 position seen =>
    obtain rfl := Except.ok.inj h
    exact ⟨[], [], rfl, (List.append_nil _).symm, .nil⟩
  | case2 position seen byte rest hone ih =>
    obtain ⟨forms, more, rfl, rfl, hforms⟩ := ih h
    exact ⟨[byte] :: forms, byte.toUInt16 :: more, rfl, by simp, .cons (.one hone.1 hone.2) hforms⟩
  | case4 position seen byte rest hone htwo low hlow ih =>
    obtain ⟨hlt, rest, rfl⟩ := exists_of_continuation hlow
    obtain ⟨forms, more, hrest, rfl, hforms⟩ := ih h
    rw [UInt8.le_iff_toNat_le, UInt8.lt_iff_toNat_lt] at htwo
    exact ⟨_ :: forms, _ :: more, by simpa using hrest, by simp, .cons (.two htwo hlt) hforms⟩
  | case7 position seen byte rest hone htwo hthree middle hmiddle low hlow ih =>
    obtain ⟨hlt, rest, rfl⟩ := exists_of_continuation hmiddle
    obtain ⟨hlt', rest, rfl⟩ := exists_of_continuation hlow
    obtain ⟨forms, more, hrest, rfl, hforms⟩ := ih h
    rw [UInt8.le_iff_toNat_le, UInt8.lt_iff_toNat_lt] at hthree
    exact ⟨_ :: forms, _ :: more, by simpa using hrest, by simp, .cons (.three hthree hlt hlt') hforms⟩
  | _ => cases h

/-! ## One unit -/

theorem Form.length_le {form : Bytes} {unit : UInt16} (h : Form form unit) :
    (encodeUnit unit).length ≤ form.length := by
  cases h with
  | one hne hlt => exact Nat.le_of_eq (congrArg List.length (encodeUnit_one hne hlt))
  | two hlead hlow =>
    refine length_encodeUnit_le_two ?_
    rw [UInt16.toNat_ofNat_of_lt' (by simp only [UInt16.size]; omega)]
    omega
  | three => exact length_encodeUnit_le _

/-- There is one form of each length. -/
theorem Form.eq_of_length {form : Bytes} {unit : UInt16} (h : Form form unit)
    (hlength : (encodeUnit unit).length = form.length) : encodeUnit unit = form := by
  cases h with
  | one hne hlt => exact encodeUnit_one hne hlt
  | @two byte hlead low hlow =>
    rw [encodeUnit_two_iff hlead hlow]
    rw [length_encodeUnit, UInt16.toNat_ofNat_of_lt' (by simp only [UInt16.size]; omega)] at hlength
    by_cases hone : 0 < (byte.toNat - 0xC0) * 64 + low ∧ (byte.toNat - 0xC0) * 64 + low < 0x80
    · rw [if_pos hone] at hlength
      cases hlength
    · omega
  | @three byte hlead middle low hmiddle hlow =>
    rw [encodeUnit_three_iff hlead hmiddle hlow]
    rw [length_encodeUnit, UInt16.toNat_ofNat_of_lt' (by simp only [UInt16.size]; omega)] at hlength
    by_cases hshort : (byte.toNat - 0xE0) * 4096 + middle * 64 + low < 0x800
    · rw [if_pos hshort] at hlength
      split at hlength <;> cases hlength
    · omega

/-! ## All units -/

/-- Forms are as long together as what is written for their units only if each of them is. -/
theorem eq_flatten_of_length {forms : List Bytes} {units : List UInt16} (h : List.Forall₂ Form forms units) :
    (units.flatMap encodeUnit).length ≤ forms.flatten.length ∧
      ((units.flatMap encodeUnit).length = forms.flatten.length → units.flatMap encodeUnit = forms.flatten) := by
  induction h with
  | nil => exact ⟨Nat.le_refl 0, fun _ => rfl⟩
  | @cons form unit forms units hfirst _ ih =>
    have hle := hfirst.length_le
    rw [List.flatMap_cons, List.flatten_cons, List.length_append, List.length_append]
    refine ⟨Nat.add_le_add hle ih.1, fun hlength => ?_⟩
    have hunit : (encodeUnit unit).length = form.length := by omega
    rw [hfirst.eq_of_length hunit, ih.2 (by omega)]

theorem encode_eq_of_length {bytes : Bytes} {text : String} (h : decode bytes = .ok text)
    (hlength : (encode text).length = bytes.length) : encode text = bytes := by
  obtain ⟨units, hunits, hencode⟩ := exists_units_of_decode h
  obtain ⟨forms, more, rfl, rfl, hforms⟩ := exists_forms hunits
  rw [hencode] at hlength ⊢
  exact (eq_flatten_of_length hforms).2 hlength

/-- A text that was read is not written with more bytes, and with as many only if they are the same. So each text
constant that was read can be written again. -/
theorem encode_noLonger :
    (∀ bytes text, decode bytes = .ok text →
      (encode text).length ≤ bytes.length ∧ ((encode text).length = bytes.length ↔ encode text = bytes)) ∧
    ∀ input text rest, Constant.decode input = .ok (.utf8 text, rest) →
      ∃ written, (Constant.utf8 text).encode = .ok written := by
  refine ⟨fun bytes text h => ?_, fun input text rest h => ?_⟩
  · exact ⟨length_encode_le_of_decode h, encode_eq_of_length h, congrArg List.length⟩
  · exact Constant.exists_encode_iff.2 (Constant.yields_decode _ _ _ h)

/-- A letter that takes three bytes needs one. A zero in two bytes and a pair of surrogates are left as they are. -/
def overlongText : Bytes := [0xE0, 0x81, 0x81, 0xC0, 0x80, 0xED, 0xA0, 0xBD, 0xED, 0xB8, 0x80]

theorem encode_noLonger_overlong :
    decode overlongText = .ok "A\x00😀" ∧ (encode "A\x00😀").length ≤ 11 ∧ encode "A\x00😀" ≠ overlongText ∧
      Constant.decode ([1, 0, 11] ++ overlongText) = .ok (.utf8 "A\x00😀", []) ∧
        ∃ written, (Constant.utf8 "A\x00😀").encode = .ok written := by
  have hdecode : decode overlongText = .ok "A\x00😀" := by with_unfolding_all rfl
  have hconstant : Constant.decode ([1, 0, 11] ++ overlongText) = .ok (.utf8 "A\x00😀", []) := by
    with_unfolding_all rfl
  have hlength : (encode "A\x00😀").length ≠ overlongText.length := by with_unfolding_all decide
  have hmodified := encode_noLonger.1 overlongText _ hdecode
  exact ⟨hdecode, hmodified.1, fun h => hlength (hmodified.2.2 h), hconstant, encode_noLonger.2 _ _ _ hconstant⟩

end ClassSandbox.ModifiedUtf8
