import ClassSandbox.Bytes.Encoder
import ClassSandbox.Proofs.Decoding

/-!
# Reading what was written

`Decoder.Reads` says that a decoder takes some bytes off the front of its input, whatever comes after them, and
gives a value. Sequences of decoders read bytes put one after another (`Reads.bind`), so each format is read
back part by part, from its numbers (`reads_u16`, `reads_u32`, `reads_u64`) to its lists (`reads_listOf`).
Writing a list fails only if it is too long or an item fails (`exists_listOf_iff`).
-/

namespace ClassSandbox

/-! ## Writing -/

namespace Encoder

variable {α : Type} {encode : α → Encoding}

theorem length_eq_ok_iff {counted : Counted} {n : Nat} {bytes : Bytes} :
    length counted n = .ok bytes ↔ n < 0x10000 ∧ bytes = u16 (UInt16.ofNat n) := by
  unfold length
  split
  · rename_i hfits
    exact ⟨fun h => ⟨hfits, (Except.ok.inj h).symm⟩, fun h => by rw [h.2]⟩
  · rename_i hlong
    exact ⟨fun h => (nomatch h), fun h => absurd h.1 hlong⟩

theorem concat_eq_ok {values : List α} {bytes : Bytes} (h : concat encode values = .ok bytes) :
    ∃ parts, List.Forall₂ (fun value part => encode value = .ok part) values parts ∧ bytes = parts.flatten := by
  rw [concat, ← bind_pure_comp] at h
  obtain ⟨parts, hparts, h⟩ := except_bind_eq_ok_iff.1 h
  cases h
  exact ⟨parts, forall₂_of_mapM hparts, rfl⟩

theorem exists_concat_iff {values : List α} :
    (∃ bytes, concat encode values = .ok bytes) ↔ ∀ value ∈ values, ∃ part, encode value = .ok part := by
  rw [← exists_mapM_iff]
  constructor
  · rintro ⟨bytes, h⟩
    rw [concat, ← bind_pure_comp] at h
    obtain ⟨parts, hparts, -⟩ := except_bind_eq_ok_iff.1 h
    exact ⟨parts, hparts⟩
  · rintro ⟨parts, hparts⟩
    exact ⟨parts.flatten, by rw [concat, hparts]; rfl⟩

theorem listOf_eq_ok {values : List α} {bytes : Bytes} (h : listOf encode values = .ok bytes) :
    values.length < 0x10000 ∧ ∃ body, concat encode values = .ok body ∧
      bytes = u16 (UInt16.ofNat values.length) ++ body := by
  obtain ⟨count, hcount, h⟩ := except_bind_eq_ok_iff.1 h
  obtain ⟨body, hbody, h⟩ := except_bind_eq_ok_iff.1 h
  obtain ⟨hfits, rfl⟩ := length_eq_ok_iff.1 hcount
  cases h
  exact ⟨hfits, body, hbody, rfl⟩

theorem exists_listOf_iff {values : List α} :
    (∃ bytes, listOf encode values = .ok bytes) ↔
      values.length < 0x10000 ∧ ∀ value ∈ values, ∃ part, encode value = .ok part := by
  rw [← exists_concat_iff]
  constructor
  · rintro ⟨bytes, h⟩
    obtain ⟨hfits, body, hbody, -⟩ := listOf_eq_ok h
    exact ⟨hfits, body, hbody⟩
  · rintro ⟨hfits, body, hbody⟩
    have hcount : length .items values.length = .ok (u16 (UInt16.ofNat values.length)) :=
      length_eq_ok_iff.2 ⟨hfits, rfl⟩
    exact ⟨u16 (UInt16.ofNat values.length) ++ body, by rw [listOf, hcount, hbody]; rfl⟩

end Encoder

/-! ## Reading -/

namespace Decoder

variable {α β : Type}

/-- From an input that starts with the bytes, the decoder takes exactly these, and they stand for the value. -/
def Reads (decoder : Decoder α) (bytes : Bytes) (value : α) : Prop :=
  ∀ rest, decoder (bytes ++ rest) = .ok (value, rest)

theorem reads_pure (a : α) : Reads (pure a) [] a := fun _ => rfl

theorem Reads.bind {x : Decoder α} {next : α → Decoder β} {front back : Bytes} {a : α} {b : β}
    (hx : Reads x front a) (hnext : Reads (next a) back b) : Reads (x >>= next) (front ++ back) b := by
  intro rest
  rw [List.append_assoc]
  exact bind_eq_ok_iff.2 ⟨a, back ++ rest, hx _, hnext _⟩

/-- The last of several decoders is followed only by what reads no more bytes. -/
theorem Reads.bind_last {x : Decoder α} {next : α → Decoder β} {bytes : Bytes} {a : α} {b : β}
    (h : Reads x bytes a) (hnext : Reads (next a) [] b) : Reads (x >>= next) bytes b := by
  rw [← List.append_nil bytes]
  exact h.bind hnext

theorem Reads.bind_pure {x : Decoder α} {f : α → β} {bytes : Bytes} {a : α} (h : Reads x bytes a) :
    Reads (x >>= fun a => pure (f a)) bytes (f a) := h.bind_last (reads_pure (f a))

theorem Reads.map {x : Decoder α} {bytes : Bytes} {a : α} (h : Reads x bytes a) (f : α → β) :
    Reads (f <$> x) bytes (f a) := by
  rw [← bind_pure_comp]
  exact h.bind_pure

theorem reads_byte (b : UInt8) : Reads byte [b] b := fun _ => rfl

theorem reads_take (bytes : Bytes) : Reads (take bytes.length) bytes bytes := by
  intro rest
  simp [take]

/-! ### Numbers -/

theorem join_u16 (n : UInt16) : (n / 0x100).toUInt8.toUInt16 * 0x100 + n.toUInt8.toUInt16 = n := by
  apply UInt16.toNat_inj.1
  have := n.toNat_lt
  simp
  omega

theorem join_u32 (n : UInt32) :
    (n / 0x10000).toUInt16.toUInt32 * 0x10000 + n.toUInt16.toUInt32 = n := by
  apply UInt32.toNat_inj.1
  have := n.toNat_lt
  simp
  omega

theorem join_u64 (n : UInt64) :
    (n / 0x100000000).toUInt32.toUInt64 * 0x100000000 + n.toUInt32.toUInt64 = n := by
  apply UInt64.toNat_inj.1
  have := n.toNat_lt
  simp
  omega

theorem reads_u16 (n : UInt16) : Reads u16 (Encoder.u16 n) n := by
  have h : Reads u16 _ _ := (reads_byte (n / 0x100).toUInt8).bind
    ((reads_byte n.toUInt8).bind (reads_pure _))
  rwa [join_u16] at h

theorem reads_u32 (n : UInt32) : Reads u32 (Encoder.u32 n) n := by
  have h : Reads u32 _ _ := (reads_u16 (n / 0x10000).toUInt16).bind
    ((reads_u16 n.toUInt16).bind (reads_pure _))
  rwa [join_u32, List.append_nil] at h

theorem reads_u64 (n : UInt64) : Reads u64 (Encoder.u64 n) n := by
  have h : Reads u64 _ _ := (reads_u32 (n / 0x100000000).toUInt32).bind
    ((reads_u32 n.toUInt32).bind (reads_pure _))
  rwa [join_u64, List.append_nil] at h

theorem reads_i32 (n : Int32) : Reads i32 (Encoder.i32 n) n :=
  (reads_u32 n.toUInt32).map UInt32.toInt32

theorem reads_i64 (n : Int64) : Reads i64 (Encoder.i64 n) n :=
  (reads_u64 n.toUInt64).map UInt64.toInt64

/-! ### Lists -/

theorem itemsLoop_eq {item : Decoder α} {parts : List Bytes} {values seen : List α} {rest : Bytes}
    (h : List.Forall₂ (fun part value => Reads item part value) parts values) :
    itemsLoop item values.length seen (parts.flatten ++ rest) = .ok (seen.reverse ++ values, rest) := by
  induction h generalizing seen with
  | nil => simp [itemsLoop]
  | cons hfirst _ ih =>
    rw [List.flatten_cons, List.append_assoc, List.length_cons, itemsLoop, hfirst]
    simp [ih]

theorem reads_items {item : Decoder α} {parts : List Bytes} {values : List α}
    (h : List.Forall₂ (fun part value => Reads item part value) parts values) :
    Reads (items item values.length) parts.flatten values := by
  intro rest
  rw [items, itemsLoop_eq h]
  rfl

/-- A list is read back if each of its items is. -/
theorem reads_listOf {item : Decoder α} {encode : α → Encoding} {values : List α} {bytes : Bytes}
    (hitem : ∀ value ∈ values, ∀ part, encode value = .ok part → Reads item part value)
    (h : Encoder.listOf encode values = .ok bytes) : Reads (listOf item) bytes values := by
  obtain ⟨hfits, body, hbody, rfl⟩ := Encoder.listOf_eq_ok h
  obtain ⟨parts, hparts, rfl⟩ := Encoder.concat_eq_ok hbody
  refine (reads_u16 _).bind ?_
  rw [UInt16.toNat_ofNat_of_lt' hfits]
  refine reads_items (List.Forall₂.flip ?_)
  exact ((List.forall₂_and_left _ _).2 ⟨hitem, hparts⟩).imp fun _ part h => h.1 part h.2

end Decoder

end ClassSandbox
