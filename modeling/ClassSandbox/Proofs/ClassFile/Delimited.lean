import ClassSandbox.Proofs.Bytes.Delimited
import ClassSandbox.Proofs.ClassFile.Canonical

/-!
# Class files delimit themselves

All parts of a class file are `Delimited`, from its constants on, whose tags say what they hold, and over its pool,
whose constants have to fill the slots that were declared. So a class that was read is no longer read if anything
follows it, and it has come to its end too early if anything is missing (`parse_exactly`).
-/

namespace ClassSandbox

open Decoder

/-! ## Constants -/

theorem HandleKind.delimited_decode : Delimited decode := by
  refine delimited_byte.bind fun tag => ?_
  split
  · exact delimited_pure _
  · exact delimited_fail _

theorem Constant.delimited_decode : Delimited decode := by
  have hindex (build : ConstantIndex → Constant) : Delimited (do return build (← u16)) := delimited_u16.bind_pure build
  have hindices (build : UInt16 → ConstantIndex → Constant) : Delimited (do return build (← u16) (← u16)) :=
    delimited_u16.bind fun first => hindex (build first)
  refine delimited_byte.bind fun tag => ?_
  split
  case h_1 =>
    refine delimited_u16.bind fun length => (delimited_take _).bind fun body => ?_
    split
    · exact delimited_pure _
    · exact delimited_fail _
  case h_2 => exact delimited_i32.bind_pure _
  case h_3 => exact delimited_u32.bind_pure _
  case h_4 => exact delimited_i64.bind_pure _
  case h_5 => exact delimited_u64.bind_pure _
  case h_12 => exact HandleKind.delimited_decode.bind fun kind => hindex (methodHandle kind)
  case h_6 | h_7 | h_13 | h_16 | h_17 => exact hindex _
  case h_8 | h_9 | h_10 | h_11 | h_14 | h_15 => exact hindices _
  case h_18 => exact delimited_fail _

/-! ## Pools -/

namespace ConstantPool

theorem decodeLoop_of_lt {count : Nat} {pool : ConstantPool} (h : pool.constants.nextOffset < count) :
    decodeLoop count pool = Constant.decode >>= fun constant => decodeLoop count (pool.store constant) := by
  funext bytes
  rw [decodeLoop, if_pos h]
  cases hread : Constant.decode bytes with
  | error fault => rw [bind_eq_error hread]
  | ok read => rw [bind_eq_of_ok hread]

/-- There is an end to the constants, as each of them takes a slot. -/
theorem delimited_decodeLoop (count : Nat) (pool : ConstantPool) : Delimited (decodeLoop count pool) := by
  induction hslots : count - pool.constants.nextOffset using Nat.strongRecOn generalizing pool with
  | _ slots ih =>
    by_cases hroom : pool.constants.nextOffset < count
    · rw [decodeLoop_of_lt hroom]
      refine Constant.delimited_decode.bind fun constant => ih _ ?_ (pool.store constant) rfl
      have hwidth := constant.width_pos
      rw [nextOffset_store]
      omega
    · have hfull : decodeLoop count pool = (pure pool : Decoder ConstantPool) := by
        funext bytes
        rw [decodeLoop, if_neg hroom]
        rfl
      rw [hfull]
      exact delimited_pure pool

theorem delimited_decode : Delimited decode := by
  refine delimited_u16.bind fun count => (delimited_decodeLoop count.toNat empty).bind fun pool => ?_
  split
  · exact delimited_pure pool
  · exact delimited_fail _

end ConstantPool

/-! ## Classes -/

theorem Version.delimited_decode : Delimited decode := delimited_u16.bind fun _ => delimited_u16.bind_pure _

theorem AccessFlags.delimited_decode {kind : Declared} : Delimited (decode : Decoder (AccessFlags kind)) :=
  delimited_u16.map ofBits

theorem Attribute.delimited_decode : Delimited decode :=
  delimited_u16.bind fun _ => delimited_u32.bind fun length => (delimited_take length.toNat).bind_pure _

theorem delimited_optionalIndex : Delimited decodeOptionalIndex := delimited_u16.bind_pure _

theorem Member.delimited_decode {kind : Declared} : Delimited (decode : Decoder (Member kind)) :=
  AccessFlags.delimited_decode.bind fun _ => delimited_u16.bind fun _ => delimited_u16.bind fun _ =>
    (delimited_listOf Attribute.delimited_decode).bind_pure _

namespace ClassFile

theorem delimited_decode : Delimited decode := by
  refine (delimited_take 4).bind fun found => ?_
  split
  · exact delimited_fail_bind _ _
  refine Version.delimited_decode.bind fun version => ConstantPool.delimited_decode.bind fun pool =>
    AccessFlags.delimited_decode.bind fun flags => delimited_u16.bind fun thisClass =>
    delimited_optionalIndex.bind fun superClass => ?_
  exact (delimited_listOf delimited_u16).bind fun interfaces =>
    (delimited_listOf Member.delimited_decode).bind fun fields =>
    (delimited_listOf Member.delimited_decode).bind fun methods =>
    (delimited_listOf Attribute.delimited_decode).bind_pure _

variable {bytes : Bytes} {file : ClassFile}

theorem spans_of_parse (h : parse bytes = .ok file) : Spans decode bytes file := by
  obtain ⟨front, hfront, hspans⟩ := delimited_decode _ _ _ (parse_eq_ok_iff.1 h)
  rw [List.append_nil] at hfront
  exact hfront ▸ hspans

theorem parse_append {more : Bytes} (h : parse bytes = .ok file) (hmore : more ≠ []) :
    parse (bytes ++ more) = .error (.malformed (.trailingBytes more.length)) := by
  cases more with
  | nil => exact absurd rfl hmore
  | cons first others => rw [parse, (spans_of_parse h).reads]

theorem parse_truncated {part : Bytes} (h : parse bytes = .ok file) (hpart : part <+: bytes) (hne : part ≠ bytes) :
    parse part = .error (.malformed .endOfFile) := by
  obtain ⟨missing, rfl⟩ := hpart
  have hmissing : missing ≠ [] := fun hnone => hne (by rw [hnone, List.append_nil])
  rw [parse, (spans_of_parse h).short part missing rfl hmissing]

theorem exists_malformed_of_parse {fault : ClassFault} (h : parse bytes = .error fault) :
    ∃ malformation, fault = .malformed malformation := by
  unfold parse at h
  split at h <;> cases h <;> exact ⟨_, rfl⟩

/-- A class takes all of its bytes and no more. Whatever follows it is counted as trailing, and without some of the
bytes at its end the file ends too early. Bytes that are no class are always a malformed class. -/
theorem parse_exactly (bytes : Bytes) :
    (∀ file, parse bytes = .ok file →
      (∀ more, more ≠ [] →
        parse (bytes ++ more) = .error (.malformed (.trailingBytes more.length)) ∧
          (Malformation.trailingBytes more.length).message = s!"{more.length} trailing bytes after class") ∧
      ∀ part, part <+: bytes → part ≠ bytes →
        parse part = .error (.malformed .endOfFile) ∧
          Malformation.endOfFile.message = "unexpected end of class file") ∧
    ∀ fault, parse bytes = .error fault → ∃ malformation, fault = .malformed malformation :=
  ⟨fun _ h => ⟨fun _ hmore => ⟨parse_append h hmore, rfl⟩, fun _ hpart hne => ⟨parse_truncated h hpart hne, rfl⟩⟩,
    fun _ h => exists_malformed_of_parse h⟩

/-- A class with two more bytes, one that ends within the length of its first text, and bytes that begin otherwise. -/
theorem parse_exactly_shortest :
    parse shortestBytes = .ok shortestClass ∧
      parse (shortestBytes ++ [0, 0]) = .error (.malformed (.trailingBytes 2)) ∧
      parse (shortestBytes.take 12) = .error (.malformed .endOfFile) ∧
      parse [1, 2, 3, 4] = .error (.malformed (.invalid (.badMagic [1, 2, 3, 4]))) ∧
      ∃ malformation, ClassFault.malformed (.invalid (.badMagic [1, 2, 3, 4])) = .malformed malformation := by
  have hparse : parse shortestBytes = .ok shortestClass := by with_unfolding_all rfl
  have hbad : parse [1, 2, 3, 4] = .error (.malformed (.invalid (.badMagic [1, 2, 3, 4]))) := rfl
  obtain ⟨hmore, hpart⟩ := (parse_exactly shortestBytes).1 _ hparse
  exact ⟨hparse, (hmore [0, 0] nofun).1, (hpart _ (List.take_prefix _ _) (by decide)).1, hbad,
    (parse_exactly [1, 2, 3, 4]).2 _ hbad⟩

end ClassFile

end ClassSandbox
