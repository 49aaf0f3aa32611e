import ClassSandbox.Proofs.Bytes

/-!
# Bytes that are kept

Most of what is read has one form only: a decoder `Copies` if it takes just the bytes that would be written for its
value. That is so for all numbers, and for what is put together from parts of which it is so, such as lists
(`listOf_eq_append`).
-/

namespace ClassSandbox.Decoder

variable {α β : Type}

/-! ## Numbers -/

/-- What is taken is what would be written for the value. -/
def Copies (decoder : Decoder α) (encode : α → Bytes) : Prop :=
  ∀ bytes value rest, decoder bytes = .ok (value, rest) → bytes = encode value ++ rest

theorem copies_byte : Copies byte fun b => [b] := by
  intro bytes b rest h
  cases bytes with
  | nil => cases h
  | cons first others =>
    cases h
    rfl

theorem copies_take (n : Nat) : Copies (take n) id := by
  intro bytes front rest h
  unfold take at h
  dsimp only at h
  split at h
  · cases h
  · cases h
    exact (List.take_append_drop n bytes).symm

theorem split_u16 (high low : UInt8) : Encoder.u16 (high.toUInt16 * 0x100 + low.toUInt16) = [high, low] := by
  have := high.toNat_lt
  have := low.toNat_lt
  have hhigh : ((high.toUInt16 * 0x100 + low.toUInt16) / 0x100).toUInt8 = high := by
    apply UInt8.toNat_inj.1
    simp
    omega
  have hlow : (high.toUInt16 * 0x100 + low.toUInt16).toUInt8 = low := by
    apply UInt8.toNat_inj.1
    simp
  rw [Encoder.u16, hhigh, hlow]

theorem split_u32 (high low : UInt16) :
    Encoder.u32 (high.toUInt32 * 0x10000 + low.toUInt32) = Encoder.u16 high ++ Encoder.u16 low := by
  have := high.toNat_lt
  have := low.toNat_lt
  have hhigh : ((high.toUInt32 * 0x10000 + low.toUInt32) / 0x10000).toUInt16 = high := by
    apply UInt16.toNat_inj.1
    simp
    omega
  have hlow : (high.toUInt32 * 0x10000 + low.toUInt32).toUInt16 = low := by
    apply UInt16.toNat_inj.1
    simp
  rw [Encoder.u32, hhigh, hlow]

theorem split_u64 (high low : UInt32) :
    Encoder.u64 (high.toUInt64 * 0x100000000 + low.toUInt64) = Encoder.u32 high ++ Encoder.u32 low := by
  have := high.toNat_lt
  have := low.toNat_lt
  have hhigh : ((high.toUInt64 * 0x100000000 + low.toUInt64) / 0x100000000).toUInt32 = high := by
    apply UInt32.toNat_inj.1
    simp
    omega
  have hlow : (high.toUInt64 * 0x100000000 + low.toUInt64).toUInt32 = low := by
    apply UInt32.toNat_inj.1
    simp
  rw [Encoder.u64, hhigh, hlow]

theorem Copies.bind {x : Decoder α} {next : α → Decoder β} {encodeFirst : α → Bytes} {encode : β → Bytes}
    (hx : Copies x encodeFirst)
    (hnext : ∀ a bytes b rest, next a bytes = .ok (b, rest) → encodeFirst a ++ bytes = encode b ++ rest) :
    Copies (x >>= next) encode := by
  intro bytes b rest h
  obtain ⟨a, middle, hfirst, h⟩ := bind_eq_ok_iff.1 h
  rw [hx _ _ _ hfirst]
  exact hnext a middle b rest h

/-- Two parts whose bytes are those of the value that is put together from them. -/
theorem Copies.pair {γ : Type} {x : Decoder α} {y : Decoder β} {f : α → β → γ} {encodeFirst : α → Bytes}
    {encodeSecond : β → Bytes} {encode : γ → Bytes} (hx : Copies x encodeFirst) (hy : Copies y encodeSecond)
    (hsplit : ∀ a b, encode (f a b) = encodeFirst a ++ encodeSecond b) :
    Copies (do return f (← x) (← y)) encode := by
  refine hx.bind fun a bytes value rest h => ?_
  obtain ⟨b, middle, hsecond, h⟩ := bind_eq_ok_iff.1 h
  obtain ⟨rfl, rfl⟩ := pure_eq_ok_iff.1 h
  rw [hy _ _ _ hsecond, hsplit, List.append_assoc]

theorem Copies.map {x : Decoder α} {f : α → β} {encodeFirst : α → Bytes} {encode : β → Bytes}
    (hx : Copies x encodeFirst) (hsame : ∀ a, encode (f a) = encodeFirst a) : Copies (f <$> x) encode := by
  rw [← bind_pure_comp]
  refine hx.bind fun a bytes value rest h => ?_
  obtain ⟨rfl, rfl⟩ := pure_eq_ok_iff.1 h
  rw [hsame]

theorem copies_u16 : Copies u16 Encoder.u16 := copies_byte.pair copies_byte split_u16

theorem copies_u32 : Copies u32 Encoder.u32 := copies_u16.pair copies_u16 split_u32

theorem copies_u64 : Copies u64 Encoder.u64 := copies_u32.pair copies_u32 split_u64

theorem copies_i32 : Copies i32 Encoder.i32 := copies_u32.map fun _ => by rw [Encoder.i32, UInt32.toUInt32_toInt32]

theorem copies_i64 : Copies i64 Encoder.i64 := copies_u64.map fun _ => by rw [Encoder.i64, UInt64.toUInt64_toInt64]

/-! ## Lists -/

theorem Chain.eq_append {item : Decoder α} {encode : α → Bytes} (hitem : Copies item encode) {values : List α}
    {bytes rest : Bytes} (h : Chain item bytes values rest) : bytes = values.flatMap encode ++ rest := by
  induction h with
  | nil => rfl
  | cons hfirst _ ih => rw [List.flatMap_cons, List.append_assoc, ← ih, hitem _ _ _ hfirst]

theorem concat_ok {encode : α → Bytes} (values : List α) :
    Encoder.concat (fun value => .ok (encode value)) values = .ok (values.flatMap encode) := by
  have hparts : values.mapM (fun value => (.ok (encode value) : Encoding)) = .ok (values.map encode) := List.mapM_pure
  rw [Encoder.concat, hparts, List.flatMap_def]
  rfl

/-- A list of items that are kept is kept. -/
theorem listOf_eq_append {item : Decoder α} {encode : α → Bytes} (hitem : Copies item encode) {values : List α}
    {bytes rest part : Bytes} (h : listOf item bytes = .ok (values, rest))
    (hpart : Encoder.listOf (fun value => .ok (encode value)) values = .ok part) : bytes = part ++ rest := by
  obtain ⟨count, middle, hcount, hlength, hchain⟩ := listOf_eq_ok_iff.1 h
  obtain ⟨-, body, hbody, rfl⟩ := Encoder.listOf_eq_ok hpart
  obtain rfl := Except.ok.inj ((concat_ok values).symm.trans hbody)
  rw [copies_u16 _ _ _ hcount, hchain.eq_append hitem, hlength, UInt16.ofNat_toNat, List.append_assoc]

end ClassSandbox.Decoder
