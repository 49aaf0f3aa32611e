import ClassSandbox.Proofs.Bytes.Copies

/-!
# Values that delimit themselves

A decoder that is `Delimited` tells from the bytes of a value where they end. It takes just these, whatever comes
after them, and runs out of bytes if some of them are missing at the end. Numbers are delimited, and so is what is put
together from parts that are, also if the values of the first parts decide how to go on (`Delimited.bind`). Nothing is
asked of inputs that a decoder refuses.
-/

namespace ClassSandbox.Decoder

variable {α β : Type}

/-- The decoder takes all of the bytes and no more, and some of them are not enough. -/
structure Spans (decoder : Decoder α) (front : Bytes) (value : α) : Prop where
  reads : Reads decoder front value
  short : ∀ part missing, front = part ++ missing → missing ≠ [] → decoder part = .error .endOfInput

/-- What is taken off the front of an input spans from its beginning to where the decoder stopped. -/
def Delimited (decoder : Decoder α) : Prop :=
  ∀ bytes value rest, decoder bytes = .ok (value, rest) → ∃ front, bytes = front ++ rest ∧ Spans decoder front value

theorem bind_eq_error {x : Decoder α} {next : α → Decoder β} {bytes : Bytes} {fault : DecodeFault}
    (h : x bytes = .error fault) : (x >>= next) bytes = .error fault := by
  change (x bytes >>= fun read => next read.1 read.2) = .error fault
  rw [h]
  rfl

theorem bind_eq_of_ok {x : Decoder α} {next : α → Decoder β} {bytes rest : Bytes} {a : α}
    (h : x bytes = .ok (a, rest)) : (x >>= next) bytes = next a rest := by
  change (x bytes >>= fun read => next read.1 read.2) = next a rest
  rw [h]
  rfl

/-! ## Sequences -/

theorem delimited_pure (a : α) : Delimited (pure a) := by
  intro bytes value rest h
  obtain ⟨rfl, rfl⟩ := pure_eq_ok_iff.1 h
  refine ⟨[], rfl, reads_pure a, fun part missing hsplit hne => ?_⟩
  exact absurd (List.nil_eq_append_iff.1 hsplit).2 hne

theorem delimited_fail (fault : DataFault) : Delimited (fail fault : Decoder α) := fun _ _ _ h => nomatch h

theorem delimited_fail_bind (fault : DataFault) (next : α → Decoder β) : Delimited (fail fault >>= next) :=
  fun _ _ _ h => nomatch h

/-- Bytes are missing from the second part, or else from the first one. -/
theorem Spans.bind {x : Decoder α} {next : α → Decoder β} {front back : Bytes} {a : α} {b : β}
    (hx : Spans x front a) (hnext : Spans (next a) back b) : Spans (x >>= next) (front ++ back) b where
  reads := hx.reads.bind hnext.reads
  short part missing hsplit hne := by
    have hsecond : ∀ middle, part = front ++ middle → back = middle ++ missing →
        (x >>= next) part = .error .endOfInput := by
      rintro middle rfl hback
      rw [bind_eq_of_ok (hx.reads middle)]
      exact hnext.short middle missing hback hne
    rcases List.append_eq_append_iff.1 hsplit with ⟨middle, hpart, hback⟩ | ⟨middle, hfront, hmissing⟩
    · exact hsecond middle hpart hback
    · by_cases hnone : middle = []
      · subst hnone
        exact hsecond [] (by simpa using hfront.symm) (by simpa using hmissing.symm)
      · exact bind_eq_error (hx.short part middle hfront hnone)

theorem Delimited.bind {x : Decoder α} {next : α → Decoder β} (hx : Delimited x) (hnext : ∀ a, Delimited (next a)) :
    Delimited (x >>= next) := by
  intro bytes b rest h
  obtain ⟨a, middle, hfirst, hsecond⟩ := bind_eq_ok_iff.1 h
  obtain ⟨front, rfl, hfront⟩ := hx _ _ _ hfirst
  obtain ⟨back, rfl, hback⟩ := hnext a _ _ _ hsecond
  exact ⟨front ++ back, (List.append_assoc ..).symm, hfront.bind hback⟩

theorem Delimited.bind_pure {x : Decoder α} (h : Delimited x) (f : α → β) : Delimited (x >>= fun a => pure (f a)) :=
  h.bind fun a => delimited_pure (f a)

theorem Delimited.map {x : Decoder α} (h : Delimited x) (f : α → β) : Delimited (f <$> x) := by
  rw [← bind_pure_comp]
  exact h.bind_pure f

/-! ## Bytes and numbers -/

theorem delimited_byte : Delimited byte := by
  intro bytes b rest h
  cases bytes with
  | nil => cases h
  | cons first others =>
    cases h
    refine ⟨[b], rfl, reads_byte b, fun part missing hsplit hne => ?_⟩
    rcases List.singleton_eq_append_iff.1 hsplit with ⟨rfl, -⟩ | ⟨-, hnone⟩
    · rfl
    · exact absurd hnone hne

theorem take_of_short {n : Nat} {bytes : Bytes} (h : bytes.length < n) : take n bytes = .error .endOfInput := by
  have hfront : (bytes.take n).length < n := Nat.lt_of_le_of_lt (List.length_take_le' n bytes) h
  exact if_pos hfront

theorem delimited_take (n : Nat) : Delimited (take n) := by
  intro bytes front rest h
  have hbytes : bytes = front ++ rest := copies_take n _ _ _ h
  obtain rfl := yields_take _ _ _ _ h
  refine ⟨front, hbytes, reads_take front, ?_⟩
  rintro part missing rfl hne
  refine take_of_short ?_
  rw [List.length_append]
  have := List.length_pos_of_ne_nil hne
  omega

theorem delimited_u16 : Delimited u16 := delimited_byte.bind fun _ => delimited_byte.bind_pure _

theorem delimited_u32 : Delimited u32 := delimited_u16.bind fun _ => delimited_u16.bind_pure _

theorem delimited_u64 : Delimited u64 := delimited_u32.bind fun _ => delimited_u32.bind_pure _

theorem delimited_i32 : Delimited i32 := delimited_u32.map _

theorem delimited_i64 : Delimited i64 := delimited_u64.map _

/-! ## Lists -/

theorem itemsLoop_succ (item : Decoder α) (n : Nat) (seen : List α) :
    itemsLoop item (n + 1) seen = item >>= fun next => itemsLoop item n (next :: seen) := by
  funext bytes
  rw [itemsLoop]
  cases h : item bytes with
  | error fault => rw [bind_eq_error h]
  | ok read => rw [bind_eq_of_ok h]

theorem delimited_itemsLoop {item : Decoder α} (h : Delimited item) (n : Nat) (seen : List α) :
    Delimited (itemsLoop item n seen) := by
  induction n generalizing seen with
  | zero => exact delimited_pure seen.reverse
  | succ n ih =>
    rw [itemsLoop_succ]
    exact h.bind fun next => ih (next :: seen)

theorem delimited_listOf {item : Decoder α} (h : Delimited item) : Delimited (listOf item) :=
  delimited_u16.bind fun length => delimited_itemsLoop h length.toNat []

end ClassSandbox.Decoder
