import ClassSandbox.Constant.Codec
import ClassSandbox.Proofs.Bytes
import ClassSandbox.Proofs.ModifiedUtf8

/-!
# Constants are read back

Every constant that has an encoding is read back from it (`reads_decode`). Only a text can be too long to have one
(`exists_encode_iff`), and no text that was read is (`yields_decode`).
-/

namespace ClassSandbox

open Decoder

theorem HandleKind.reads_decode (kind : HandleKind) : Reads HandleKind.decode kind.encode kind := by
  refine (reads_byte kind.tag).bind_last ?_
  rw [ofTag?_tag]
  exact reads_pure kind

namespace Constant

/-- The length of a text fits in two bytes. -/
def Fits (constant : Constant) : Prop :=
  ∀ text, constant = utf8 text → (ModifiedUtf8.encode text).length < 0x10000

variable {constant : Constant} {bytes : Bytes}

/-! ## Texts -/

theorem encode_utf8_eq_ok {text : String} (h : (utf8 text).encode = .ok bytes) :
    (ModifiedUtf8.encode text).length < 0x10000 ∧
      bytes = 1 :: Encoder.u16 (UInt16.ofNat (ModifiedUtf8.encode text).length) ++ ModifiedUtf8.encode text := by
  obtain ⟨length, hlength, h⟩ := except_bind_eq_ok_iff.1 h
  obtain ⟨hfits, rfl⟩ := Encoder.length_eq_ok_iff.1 hlength
  cases h
  exact ⟨hfits, rfl⟩

theorem reads_utf8 {text : String} (hfits : (ModifiedUtf8.encode text).length < 0x10000) :
    Reads decode (1 :: Encoder.u16 (UInt16.ofNat (ModifiedUtf8.encode text).length) ++ ModifiedUtf8.encode text)
      (utf8 text) := by
  refine (reads_byte 1).bind ((reads_u16 _).bind ?_)
  rw [UInt16.toNat_ofNat_of_lt' hfits]
  refine (reads_take _).bind_last ?_
  rw [ModifiedUtf8.decode_encode]
  exact reads_pure _

/-- Only a text may fail to have an encoding. -/
theorem exists_encode_iff : (∃ bytes, constant.encode = .ok bytes) ↔ constant.Fits := by
  cases constant with
  | utf8 text =>
    constructor
    · rintro ⟨bytes, h⟩ other heq
      cases heq
      exact (encode_utf8_eq_ok h).1
    · intro h
      have hlength : Encoder.length .textBytes (ModifiedUtf8.encode text).length =
          .ok (Encoder.u16 (UInt16.ofNat (ModifiedUtf8.encode text).length)) :=
        Encoder.length_eq_ok_iff.2 ⟨h text rfl, rfl⟩
      exact ⟨_, by rw [encode, hlength]; rfl⟩
  | _ => exact ⟨fun _ _ heq => (nomatch heq), fun _ => ⟨_, rfl⟩⟩

/-! ## All constants -/

theorem reads_index (build : ConstantIndex → Constant) (index : ConstantIndex) :
    Reads (do return build (← u16)) (Encoder.u16 index) (build index) :=
  (reads_u16 index).map build

theorem reads_indices (build : UInt16 → ConstantIndex → Constant) (first : UInt16) (second : ConstantIndex) :
    Reads (do return build (← u16) (← u16)) (Encoder.u16 first ++ Encoder.u16 second) (build first second) :=
  (reads_u16 first).bind (reads_index (build first) second)

theorem reads_decode (h : constant.encode = .ok bytes) : Reads decode bytes constant := by
  cases constant with
  | utf8 text =>
    obtain ⟨hfits, rfl⟩ := encode_utf8_eq_ok h
    exact reads_utf8 hfits
  | integer value =>
    cases h
    exact (reads_byte 3).bind ((reads_i32 value).map integer)
  | float bits =>
    cases h
    exact (reads_byte 4).bind ((reads_u32 bits).map float)
  | long value =>
    cases h
    exact (reads_byte 5).bind ((reads_i64 value).map long)
  | double bits =>
    cases h
    exact (reads_byte 6).bind ((reads_u64 bits).map double)
  | classRef name =>
    cases h
    exact (reads_byte 7).bind (reads_index classRef name)
  | string text =>
    cases h
    exact (reads_byte 8).bind (reads_index string text)
  | fieldRef owner member =>
    cases h
    exact (reads_byte 9).bind (reads_indices fieldRef owner member)
  | methodRef owner member inInterface =>
    cases h
    cases inInterface with
    | false => exact (reads_byte 10).bind (reads_indices (methodRef · · false) owner member)
    | true => exact (reads_byte 11).bind (reads_indices (methodRef · · true) owner member)
  | nameAndType name descriptor =>
    cases h
    exact (reads_byte 12).bind (reads_indices nameAndType name descriptor)
  | methodHandle kind member =>
    cases h
    exact (reads_byte 15).bind (kind.reads_decode.bind (reads_index (methodHandle kind) member))
  | methodType descriptor =>
    cases h
    exact (reads_byte 16).bind (reads_index methodType descriptor)
  | dynamic bootstrap site =>
    cases h
    exact (reads_byte 17).bind (reads_indices dynamic bootstrap site)
  | invokeDynamic bootstrap site =>
    cases h
    exact (reads_byte 18).bind (reads_indices invokeDynamic bootstrap site)
  | moduleRef name =>
    cases h
    exact (reads_byte 19).bind (reads_index moduleRef name)
  | packageRef name =>
    cases h
    exact (reads_byte 20).bind (reads_index packageRef name)

/-- A text takes no more bytes than it was read from. -/
theorem yields_decode : Yields decode Fits := by
  unfold decode
  refine yields_bind fun tag => ?_
  split
  case h_1 =>
    refine yields_bind fun length => (yields_take _).bind fun body hbody => ?_
    split
    · rename_i text htext
      refine yields_pure fun other heq => ?_
      cases heq
      have hle := ModifiedUtf8.length_encode_le_of_decode htext
      exact Nat.lt_of_le_of_lt (hbody ▸ hle) length.toNat_lt
    · exact yields_fail _
  case h_2 | h_3 | h_4 | h_5 | h_6 | h_7 | h_13 | h_16 | h_17 =>
    exact yields_bind fun _ => yields_pure fun _ heq => nomatch heq
  case h_8 | h_9 | h_10 | h_11 | h_12 | h_14 | h_15 =>
    exact yields_bind fun _ => yields_bind fun _ => yields_pure fun _ heq => nomatch heq
  case h_18 => exact yields_fail _

end Constant

end ClassSandbox
