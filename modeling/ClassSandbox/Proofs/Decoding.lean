import ClassSandbox.Bytes.Decoder
import ClassSandbox.Proofs.Outcome

/-!
# Decoding step by step

A sequence of decoders reads bytes when its parts read them one after the other (`Decoder.bind_eq_ok_iff`).
`Decoder.Yields` says that a decoder gives only values with some property, whatever it reads: lists have at most
65535 items (`yields_listOf`). The items of a list are read in turn, which `Chain` says without the loop that does it
(`listOf_eq_ok_iff`).
-/

namespace ClassSandbox.Decoder

variable {α β : Type}

theorem pure_eq_ok_iff {a b : α} {bytes rest : Bytes} :
    (pure a : Decoder α) bytes = .ok (b, rest) ↔ a = b ∧ bytes = rest := by
  change (Except.ok (a, bytes) : Except DecodeFault _) = .ok (b, rest) ↔ _
  simp

theorem bind_eq_ok_iff {x : Decoder α} {next : α → Decoder β} {b : β} {bytes rest : Bytes} :
    (x >>= next) bytes = .ok (b, rest) ↔
      ∃ a middle, x bytes = .ok (a, middle) ∧ next a middle = .ok (b, rest) := by
  change (x bytes >>= fun read => next read.1 read.2) = .ok (b, rest) ↔ _
  rw [except_bind_eq_ok_iff, Prod.exists]

/-! ## What is read -/

/-- Every value that is read has a property. -/
def Yields (decoder : Decoder α) (property : α → Prop) : Prop :=
  ∀ bytes value rest, decoder bytes = .ok (value, rest) → property value

variable {property : α → Prop}

theorem yields_pure {a : α} (h : property a) : Yields (pure a) property := by
  intro bytes value rest hread
  obtain ⟨rfl, -⟩ := pure_eq_ok_iff.1 hread
  exact h

theorem yields_fail (fault : DataFault) : Yields (fail fault) property := fun _ _ _ hread => nomatch hread

theorem Yields.bind {x : Decoder β} {next : β → Decoder α} {first : β → Prop} (hx : Yields x first)
    (hnext : ∀ b, first b → Yields (next b) property) : Yields (x >>= next) property := by
  intro bytes value rest hread
  obtain ⟨b, middle, hb, hread⟩ := bind_eq_ok_iff.1 hread
  exact hnext b (hx bytes b middle hb) middle value rest hread

/-- The property does not depend on what the first decoder reads. -/
theorem yields_bind {x : Decoder β} {next : β → Decoder α} (h : ∀ b, Yields (next b) property) :
    Yields (x >>= next) property := by
  have hx : Yields x fun _ => True := fun _ _ _ _ => trivial
  exact hx.bind fun b _ => h b

theorem yields_take (n : Nat) : Yields (take n) fun bytes => bytes.length = n := by
  intro bytes front rest hread
  unfold take at hread
  dsimp only at hread
  split at hread
  · cases hread
  · rename_i hlong
    cases hread
    rw [List.length_take] at hlong ⊢
    omega

/-! ## Lists -/

/-- Some values are read one after the other. -/
inductive Chain (item : Decoder α) : Bytes → List α → Bytes → Prop where
  | nil (bytes : Bytes) : Chain item bytes [] bytes
  | cons {bytes middle rest : Bytes} {value : α} {values : List α} (first : item bytes = .ok (value, middle))
      (others : Chain item middle values rest) : Chain item bytes (value :: values) rest

theorem itemsLoop_eq_ok_iff {item : Decoder α} {n : Nat} {seen values : List α} {bytes rest : Bytes} :
    itemsLoop item n seen bytes = .ok (values, rest) ↔
      ∃ more, values = seen.reverse ++ more ∧ more.length = n ∧ Chain item bytes more rest := by
  induction n generalizing seen bytes with
  | zero =>
    rw [itemsLoop]
    constructor
    · rintro ⟨⟩
      exact ⟨[], (List.append_nil _).symm, rfl, .nil _⟩
    · rintro ⟨more, rfl, hlength, hchain⟩
      obtain rfl := List.length_eq_zero_iff.1 hlength
      cases hchain
      rw [List.append_nil]
  | succ n ih =>
    unfold itemsLoop
    constructor
    · intro h
      split at h
      · cases h
      · rename_i next middle hnext
        obtain ⟨more, rfl, rfl, hchain⟩ := ih.1 h
        exact ⟨next :: more, by simp, rfl, .cons hnext hchain⟩
    · rintro ⟨more, rfl, hlength, hchain⟩
      cases hchain with
      | nil => cases hlength
      | cons hfirst hothers =>
        simp only [hfirst]
        exact ih.2 ⟨_, by simp, Nat.succ.inj hlength, hothers⟩

theorem listOf_eq_ok_iff {item : Decoder α} {values : List α} {bytes rest : Bytes} :
    listOf item bytes = .ok (values, rest) ↔
      ∃ count middle, u16 bytes = .ok (count, middle) ∧ values.length = count.toNat ∧
        Chain item middle values rest := by
  rw [listOf, bind_eq_ok_iff]
  simp only [items, itemsLoop_eq_ok_iff, List.reverse_nil, List.nil_append, exists_eq_left']

theorem Chain.forall_mem {item : Decoder α} (h : Yields item property) {values : List α} {bytes rest : Bytes}
    (hchain : Chain item bytes values rest) : ∀ value ∈ values, property value := by
  induction hchain with
  | nil => exact nofun
  | cons hfirst _ ih => exact List.forall_mem_cons.2 ⟨h _ _ _ hfirst, ih⟩

theorem yields_listOf {item : Decoder α} (h : Yields item property) :
    Yields (listOf item) fun values => values.length < 0x10000 ∧ ∀ value ∈ values, property value := by
  intro bytes values rest hread
  obtain ⟨count, middle, -, hlength, hchain⟩ := listOf_eq_ok_iff.1 hread
  exact ⟨hlength ▸ count.toNat_lt, hchain.forall_mem h⟩

end ClassSandbox.Decoder
