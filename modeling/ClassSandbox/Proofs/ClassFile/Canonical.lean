import ClassSandbox.Proofs.Bytes.Copies
import ClassSandbox.Proofs.ClassFile.RoundTrip
import ClassSandbox.Proofs.ClassFile.Survey

/-!
# Classes are written in a canonical form

What is written for a part that was read is `Recoded`: it is not longer than the part was, and it is the part itself
exactly if nothing in it was chosen otherwise than `Mark.IsCanonical` says. Parts are put together by `Recoded.append`,
from constants (`Constant.recoded_of_decode`) over pools and members to whole classes (`ClassFile.toBytes_of_parse`).
-/

namespace ClassSandbox

open Decoder

variable {front part front' part' : Bytes} {marks marks' : List Mark}

/-- A part of a file, what is written for it, and the marks in it. -/
structure Recoded (front part : Bytes) (marks : List Mark) : Prop where
  length_le : part.length ≤ front.length
  eq_iff : part = front ↔ ∀ mark ∈ marks, mark.IsCanonical

namespace Recoded

theorem refl (front : Bytes) : Recoded front front [] := ⟨Nat.le_refl _, by simp⟩

theorem append (h : Recoded front part marks) (h' : Recoded front' part' marks') :
    Recoded (front ++ front') (part ++ part') (marks ++ marks') where
  length_le := by
    rw [List.length_append, List.length_append]
    exact Nat.add_le_add h.length_le h'.length_le
  eq_iff := by
    rw [append_eq_append_iff_of_length_le h.length_le h'.length_le, h.eq_iff, h'.eq_iff, List.forall_mem_append]

theorem prepend (h : Recoded front part marks) (same : Bytes) : Recoded (same ++ front) (same ++ part) marks :=
  (refl same).append h

theorem postpend (h : Recoded front part marks) (same : Bytes) : Recoded (front ++ same) (part ++ same) marks := by
  have hboth := h.append (refl same)
  rwa [List.append_nil] at hboth

/-- A part after its length. -/
theorem counted (h : Recoded front part marks) :
    Recoded (Encoder.u16 (UInt16.ofNat front.length) ++ front) (Encoder.u16 (UInt16.ofNat part.length) ++ part)
      marks where
  length_le := by
    rw [List.length_append, List.length_append]
    exact Nat.add_le_add (Nat.le_refl 2) h.length_le
  eq_iff := by
    have hcount : (Encoder.u16 (UInt16.ofNat part.length)).length ≤
        (Encoder.u16 (UInt16.ofNat front.length)).length := Nat.le_refl 2
    rw [append_eq_append_iff_of_length_le hcount h.length_le, ← h.eq_iff, and_iff_right_of_imp]
    exact fun heq => by rw [heq]

end Recoded

/-- What a decoder reads is recoded, with the marks that a survey finds in the same bytes. -/
def Recodes {α : Type} (decoder : Decoder α) (survey : Decoder (List Mark)) (encode : α → Encoding) : Prop :=
  ∀ bytes value rest part, decoder bytes = .ok (value, rest) → encode value = .ok part →
    ∃ front marks, bytes = front ++ rest ∧ survey bytes = .ok (marks, rest) ∧ Recoded front part marks

namespace Recodes

variable {α : Type} {item : Decoder α} {survey : Decoder (List Mark)} {encode : α → Encoding} {bytes rest : Bytes}
  {values : List α}

theorem chain (h : Recodes item survey encode) {parts : List Bytes} (hchain : Chain item bytes values rest)
    (hparts : List.Forall₂ (fun value part => encode value = .ok part) values parts) :
    ∃ front found, bytes = front ++ rest ∧ Chain survey bytes found rest ∧ found.length = values.length ∧
      Recoded front parts.flatten found.flatten := by
  induction hchain generalizing parts with
  | nil bytes =>
    cases hparts
    exact ⟨[], [], rfl, .nil bytes, rfl, Recoded.refl []⟩
  | cons hfirst _ ih =>
    obtain ⟨part, others, hpart, hothers, rfl⟩ := List.forall₂_cons_left_iff.1 hparts
    obtain ⟨back, found, rfl, hsurveys, hlength, hback⟩ := ih hothers
    obtain ⟨front, marks, rfl, hsurvey, hfront⟩ := h _ _ _ _ hfirst hpart
    exact ⟨front ++ back, marks :: found, by rw [List.append_assoc], .cons hsurvey hsurveys, congrArg Nat.succ hlength,
      hfront.append hback⟩

theorem listOf (h : Recodes item survey encode) (hread : Decoder.listOf item bytes = .ok (values, rest))
    (hpart : Encoder.listOf encode values = .ok part) :
    ∃ front found, bytes = front ++ rest ∧ Decoder.listOf survey bytes = .ok (found, rest) ∧
      Recoded front part found.flatten := by
  obtain ⟨count, middle, hcount, hlength, hchain⟩ := listOf_eq_ok_iff.1 hread
  obtain ⟨-, body, hbody, rfl⟩ := Encoder.listOf_eq_ok hpart
  obtain ⟨parts, hparts, rfl⟩ := Encoder.concat_eq_ok hbody
  obtain ⟨front, found, rfl, hsurveys, hfound, hrecoded⟩ := h.chain hchain hparts
  refine ⟨Encoder.u16 count ++ front, found, ?_, listOf_eq_ok_iff.2 ⟨count, _, hcount, ?_, hsurveys⟩, ?_⟩
  · rw [copies_u16 _ _ _ hcount, List.append_assoc]
  · rw [hfound, hlength]
  · rw [hlength, UInt16.ofNat_toNat]
    exact hrecoded.prepend _

end Recodes

/-! ## Constants -/

theorem HandleKind.tag_of_ofTag? {kind : HandleKind} {tag : UInt8} (h : ofTag? tag = some kind) : kind.tag = tag := by
  unfold ofTag? at h
  split at h <;> cases h <;> rfl

theorem HandleKind.copies_decode : Copies decode encode := by
  refine copies_byte.bind fun tag bytes kind rest h => ?_
  cases hkind : ofTag? tag with
  | none =>
    rw [hkind] at h
    cases h
  | some found =>
    rw [hkind] at h
    obtain ⟨rfl, rfl⟩ := pure_eq_ok_iff.1 h
    rw [encode, tag_of_ofTag? hkind]

namespace Constant

variable {constant : Constant} {bytes rest : Bytes} {tag : UInt8}

/-- What follows a tag is what is written after it. -/
def CopiesAfter (tag : UInt8) (contents : Decoder Constant) : Prop :=
  ∀ bytes constant rest, contents bytes = .ok (constant, rest) →
    ∃ body, constant.encode = .ok (tag :: body) ∧ bytes = body ++ rest

theorem copiesAfter_one {α : Type} {value : Decoder α} {encodeValue : α → Bytes} {build : α → Constant}
    (hvalue : Copies value encodeValue) (hbuild : ∀ a, (build a).encode = .ok (tag :: encodeValue a)) :
    CopiesAfter tag (do return build (← value)) := by
  intro bytes constant rest h
  obtain ⟨a, middle, ha, h⟩ := bind_eq_ok_iff.1 h
  obtain ⟨rfl, rfl⟩ := pure_eq_ok_iff.1 h
  exact ⟨encodeValue a, hbuild a, hvalue _ _ _ ha⟩

theorem copiesAfter_two {α : Type} {value : Decoder α} {encodeValue : α → Bytes} {build : α → ConstantIndex → Constant}
    (hvalue : Copies value encodeValue)
    (hbuild : ∀ a index, (build a index).encode = .ok (tag :: (encodeValue a ++ Encoder.u16 index))) :
    CopiesAfter tag (do return build (← value) (← u16)) := by
  intro bytes constant rest h
  obtain ⟨a, middle, ha, h⟩ := bind_eq_ok_iff.1 h
  obtain ⟨index, after, hindex, h⟩ := bind_eq_ok_iff.1 h
  obtain ⟨rfl, rfl⟩ := pure_eq_ok_iff.1 h
  refine ⟨encodeValue a ++ Encoder.u16 index, hbuild a index, ?_⟩
  rw [hvalue _ _ _ ha, copies_u16 _ _ _ hindex, List.append_assoc]

/-- All constants but texts have one form. -/
theorem decode_cases (h : decode bytes = .ok (constant, rest)) :
    (∃ length body text, bytes = 1 :: (Encoder.u16 length ++ (body ++ rest)) ∧ body.length = length.toNat ∧
      ModifiedUtf8.decode body = .ok text ∧ constant = utf8 text) ∨
    ∃ tag body, tag ≠ 1 ∧ constant.encode = .ok (tag :: body) ∧ bytes = tag :: (body ++ rest) := by
  obtain ⟨tag, after, htag, hrun⟩ := bind_eq_ok_iff.1 h
  obtain rfl : bytes = tag :: after := copies_byte _ _ _ htag
  have hcopies : ∀ {contents : Decoder Constant}, tag ≠ 1 → CopiesAfter tag contents →
      contents after = .ok (constant, rest) →
      ∃ other body, other ≠ 1 ∧ constant.encode = .ok (other :: body) ∧ tag :: after = other :: (body ++ rest) := by
    intro contents hne hcontents h
    obtain ⟨body, hencode, rfl⟩ := hcontents _ _ _ h
    exact ⟨tag, body, hne, hencode, rfl⟩
  split at hrun
  case h_1 =>
    obtain ⟨length, middle, hlength, hcontents⟩ := bind_eq_ok_iff.1 hrun
    obtain ⟨body, last, hbody, htext⟩ := bind_eq_ok_iff.1 hcontents
    have hmiddle : middle = body ++ last := copies_take _ _ _ _ hbody
    cases hdecode : ModifiedUtf8.decode body with
    | error fault =>
      rw [hdecode] at htext
      cases htext
    | ok text =>
      rw [hdecode] at htext
      obtain ⟨rfl, rfl⟩ := pure_eq_ok_iff.1 htext
      refine .inl ⟨length, body, text, ?_, yields_take _ _ _ _ hbody, hdecode, rfl⟩
      rw [copies_u16 _ _ _ hlength, hmiddle]
  case h_18 => cases hrun
  case h_2 => exact .inr (hcopies (by decide) (copiesAfter_one copies_i32 fun _ => rfl) hrun)
  case h_3 => exact .inr (hcopies (by decide) (copiesAfter_one copies_u32 fun _ => rfl) hrun)
  case h_4 => exact .inr (hcopies (by decide) (copiesAfter_one copies_i64 fun _ => rfl) hrun)
  case h_5 => exact .inr (hcopies (by decide) (copiesAfter_one copies_u64 fun _ => rfl) hrun)
  case h_12 => exact .inr (hcopies (by decide) (copiesAfter_two HandleKind.copies_decode fun _ _ => rfl) hrun)
  case h_6 | h_7 | h_13 | h_16 | h_17 =>
    exact .inr (hcopies (by decide) (copiesAfter_one copies_u16 fun _ => rfl) hrun)
  case h_8 | h_9 | h_10 | h_11 | h_14 | h_15 =>
    exact .inr (hcopies (by decide) (copiesAfter_two copies_u16 fun _ _ => rfl) hrun)

theorem survey_utf8 {length : UInt16} {body : Bytes} (hbody : body.length = length.toNat) (rest : Bytes) :
    survey (1 :: (Encoder.u16 length ++ (body ++ rest))) = .ok ((0, [.text body]), rest) := by
  refine bind_eq_ok_iff.2 ⟨1, _, rfl, bind_eq_ok_iff.2 ⟨length, _, reads_u16 length _, ?_⟩⟩
  rw [← hbody]
  exact bind_eq_ok_iff.2 ⟨body, rest, reads_take body rest, rfl⟩

/-- A constant that is no text leaves no choice. -/
theorem survey_of_encode {body : Bytes} (htag : tag ≠ 1) (h : constant.encode = .ok (tag :: body)) (rest : Bytes) :
    survey (tag :: (body ++ rest)) = .ok ((width constant - 1, []), rest) := by
  cases constant with
  | utf8 text =>
    obtain ⟨-, heq⟩ := encode_utf8_eq_ok h
    cases heq
    exact absurd rfl htag
  | methodRef owner member inInterface => cases inInterface <;> cases h <;> rfl
  | methodHandle kind member => cases kind <;> cases h <;> rfl
  | _ =>
    cases h
    rfl

theorem recoded_text {body : Bytes} {text : String} (h : ModifiedUtf8.decode body = .ok text) :
    Recoded body (ModifiedUtf8.encode text) [.text body] where
  length_le := ModifiedUtf8.length_encode_le_of_decode h
  eq_iff := by
    rw [ModifiedUtf8.encode_eq_iff_of_decode h, List.forall_mem_singleton]
    rfl

theorem recoded_of_decode (h : decode bytes = .ok (constant, rest)) (hpart : constant.encode = .ok part) :
    ∃ front marks, bytes = front ++ rest ∧ survey bytes = .ok ((width constant - 1, marks), rest) ∧
      Recoded front part marks := by
  obtain ⟨length, body, text, rfl, hbody, htext, rfl⟩ | ⟨tag, body, htag, hencode, rfl⟩ := decode_cases h
  · obtain ⟨-, rfl⟩ := encode_utf8_eq_ok hpart
    have hcounted := (recoded_text htext).counted
    rw [hbody, UInt16.ofNat_toNat] at hcounted
    exact ⟨1 :: (Encoder.u16 length ++ body), [.text body], by simp, survey_utf8 hbody rest, hcounted.prepend [1]⟩
  · obtain rfl := Except.ok.inj (hencode.symm.trans hpart)
    exact ⟨tag :: body, [], rfl, survey_of_encode htag hencode rest, Recoded.refl _⟩

end Constant

/-! ## Pools -/

namespace ConstantPool

variable {bytes rest : Bytes}

theorem recoded_of_chain {constants : List Constant} {parts : List Bytes}
    (hchain : Chain Constant.decode bytes constants rest)
    (hparts : List.Forall₂ (fun constant part => constant.encode = .ok part) constants parts) :
    ∃ front marks, bytes = front ++ rest ∧
      surveyConstants (OffsetVector.totalWidth constants) bytes = .ok (marks, rest) ∧
      Recoded front parts.flatten marks := by
  induction hchain generalizing parts with
  | nil bytes =>
    cases hparts
    exact ⟨[], [], rfl, by rw [OffsetVector.totalWidth_nil, surveyConstants]; rfl, Recoded.refl []⟩
  | @cons _ _ _ constant constants hfirst _ ih =>
    obtain ⟨part, others, hpart, hothers, rfl⟩ := List.forall₂_cons_left_iff.1 hparts
    obtain ⟨back, marks, rfl, hsurvey, hback⟩ := ih hothers
    obtain ⟨front, first, rfl, hstep, hfront⟩ := Constant.recoded_of_decode hfirst hpart
    refine ⟨front ++ back, first ++ marks, by rw [List.append_assoc], ?_, hfront.append hback⟩
    -- The slots after the first one of a wide constant are skipped.
    have hslots : OffsetVector.totalWidth (constant :: constants) =
        width constant - 1 + OffsetVector.totalWidth constants + 1 := by
      have := constant.width_pos
      rw [OffsetVector.totalWidth_cons]
      omega
    rw [hslots, surveyConstants]
    refine bind_eq_ok_iff.2 ⟨_, _, hstep, bind_eq_ok_iff.2 ⟨marks, _, ?_, rfl⟩⟩
    rw [Nat.add_sub_cancel_left]
    exact hsurvey

theorem recodes : Recodes decode survey encode := by
  intro bytes pool rest part h hpart
  obtain ⟨⟨hpacked, -⟩, -⟩ := yields_decode _ _ _ h
  obtain ⟨count, middle, constants, hcount, hchain, rfl, hend⟩ := exists_of_decode h
  obtain ⟨parts, hparts, rfl⟩ := encode_eq_ok hpart
  rw [elements_foldl_store] at hparts
  obtain ⟨front, marks, rfl, hsurvey, hrecoded⟩ := recoded_of_chain hchain hparts
  refine ⟨Encoder.u16 count ++ front, marks, ?_, bind_eq_ok_iff.2 ⟨count, _, hcount, ?_⟩, ?_⟩
  · rw [copies_u16 _ _ _ hcount, List.append_assoc]
  · rw [← hend, hpacked.nextOffset, Nat.add_sub_cancel_left, elements_foldl_store]
    exact hsurvey
  · rw [hend, UInt16.ofNat_toNat]
    exact hrecoded.prepend _

end ConstantPool

/-! ## Classes -/

theorem Encoder.u16_inj {m n : UInt16} : Encoder.u16 m = Encoder.u16 n ↔ m = n := by
  constructor
  · intro h
    have hm := reads_u16 m []
    rw [h, reads_u16 n []] at hm
    cases hm
    rfl
  · rintro rfl
    rfl

theorem AccessFlags.recodes (kind : Declared) :
    Recodes (@decode kind) (survey kind) fun flags => .ok flags.encode := by
  intro bytes flags rest part h hpart
  unfold decode at h
  rw [← bind_pure_comp] at h
  obtain ⟨word, middle, hword, h⟩ := bind_eq_ok_iff.1 h
  obtain ⟨rfl, rfl⟩ := pure_eq_ok_iff.1 h
  cases hpart
  refine ⟨Encoder.u16 word, [.flags kind word], copies_u16 _ _ _ hword, bind_eq_ok_iff.2 ⟨word, _, hword, rfl⟩,
    Nat.le_refl 2, ?_⟩
  rw [List.forall_mem_singleton]
  exact Encoder.u16_inj

theorem Version.copies_decode : Copies Version.decode Version.encode :=
  copies_u16.pair copies_u16 fun _ _ => rfl

theorem Attribute.copies_decode : Copies Attribute.decode Attribute.encode := by
  refine copies_u16.bind fun name bytes item rest h => ?_
  obtain ⟨length, middle, hlength, h⟩ := bind_eq_ok_iff.1 h
  obtain ⟨info, last, hinfo, h⟩ := bind_eq_ok_iff.1 h
  obtain ⟨rfl, rfl⟩ := pure_eq_ok_iff.1 h
  have hexact : info.length = length.toNat := yields_take _ _ _ _ hinfo
  rw [encode, hexact, UInt32.ofNat_toNat, copies_u32 _ _ _ hlength, copies_take _ _ _ _ hinfo]
  simp only [id, List.append_assoc]

theorem Member.recodes (kind : Declared) : Recodes (@decode kind) (survey kind) encode := by
  intro bytes m rest part h hpart
  obtain ⟨flags, afterFlags, hflags, h⟩ := bind_eq_ok_iff.1 h
  obtain ⟨name, afterName, hname, h⟩ := bind_eq_ok_iff.1 h
  obtain ⟨descriptor, afterDescriptor, hdescriptor, h⟩ := bind_eq_ok_iff.1 h
  obtain ⟨attributes, last, hattributes, h⟩ := bind_eq_ok_iff.1 h
  obtain ⟨rfl, rfl⟩ := pure_eq_ok_iff.1 h
  obtain ⟨kept, hkept, hpart⟩ := except_bind_eq_ok_iff.1 hpart
  cases hpart
  obtain ⟨front, marks, rfl, hsurvey, hrecoded⟩ := AccessFlags.recodes kind _ _ _ _ hflags rfl
  refine ⟨front ++ (Encoder.u16 name ++ (Encoder.u16 descriptor ++ kept)), marks, ?_, ?_, ?_⟩
  · rw [copies_u16 _ _ _ hname, copies_u16 _ _ _ hdescriptor,
      listOf_eq_append Attribute.copies_decode hattributes hkept]
    simp only [List.append_assoc]
  · exact bind_eq_ok_iff.2 ⟨_, _, hsurvey, bind_eq_ok_iff.2 ⟨_, _, hname, bind_eq_ok_iff.2 ⟨_, _, hdescriptor,
      bind_eq_ok_iff.2 ⟨_, _, hattributes, rfl⟩⟩⟩⟩
  · simpa only [List.append_assoc] using hrecoded.postpend (Encoder.u16 name ++ (Encoder.u16 descriptor ++ kept))

/-- The index zero stands for none, and is written for none. -/
theorem copies_optionalIndex : Copies decodeOptionalIndex encodeOptionalIndex := by
  refine copies_u16.bind fun index bytes found rest h => ?_
  obtain ⟨rfl, rfl⟩ := pure_eq_ok_iff.1 h
  by_cases hzero : index = 0
  · rw [if_pos hzero, hzero]
    rfl
  · rw [if_neg hzero]
    rfl

namespace ClassFile

theorem recodes : Recodes decode survey encode := by
  intro bytes file rest part h hpart
  obtain ⟨found, after, hmagic, h⟩ := bind_eq_ok_iff.1 h
  split at h
  · obtain ⟨_, _, hfail, -⟩ := bind_eq_ok_iff.1 h
    cases hfail
  rename_i hfound
  obtain rfl : found = magic := Decidable.not_not.1 hfound
  obtain ⟨version, _, hversion, h⟩ := bind_eq_ok_iff.1 h
  obtain ⟨pool, _, hpool, h⟩ := bind_eq_ok_iff.1 h
  obtain ⟨flags, _, hflags, h⟩ := bind_eq_ok_iff.1 h
  obtain ⟨thisClass, _, hthis, h⟩ := bind_eq_ok_iff.1 h
  obtain ⟨superClass, _, hsuper, h⟩ := bind_eq_ok_iff.1 h
  obtain ⟨interfaces, _, hinterfaces, h⟩ := bind_eq_ok_iff.1 h
  obtain ⟨fields, _, hfields, h⟩ := bind_eq_ok_iff.1 h
  obtain ⟨methods, _, hmethods, h⟩ := bind_eq_ok_iff.1 h
  obtain ⟨attributes, _, hattributes, h⟩ := bind_eq_ok_iff.1 h
  obtain ⟨rfl, rfl⟩ := pure_eq_ok_iff.1 h
  obtain ⟨poolPart, interfacesPart, fieldsPart, methodsPart, attributesPart, hpoolPart, hinterfacesPart, hfieldsPart,
    hmethodsPart, hattributesPart, rfl⟩ := encode_eq_ok hpart
  obtain ⟨poolFront, texts, rfl, hpoolSurvey, hpoolRecoded⟩ := ConstantPool.recodes _ _ _ _ hpool hpoolPart
  obtain ⟨flagsFront, words, rfl, hflagsSurvey, hflagsRecoded⟩ := AccessFlags.recodes .class _ _ _ _ hflags rfl
  obtain ⟨fieldsFront, fieldsFound, rfl, hfieldsSurvey, hfieldsRecoded⟩ :=
    (Member.recodes .field).listOf hfields hfieldsPart
  obtain ⟨methodsFront, methodsFound, rfl, hmethodsSurvey, hmethodsRecoded⟩ :=
    (Member.recodes .method).listOf hmethods hmethodsPart
  have hmembers := hfieldsRecoded.append (hmethodsRecoded.postpend attributesPart)
  have hbody := ((hmembers.prepend interfacesPart).prepend (encodeOptionalIndex superClass)).prepend
    (Encoder.u16 thisClass)
  have hall := hpoolRecoded.append (hflagsRecoded.append hbody)
  refine ⟨_, _, ?_, ?_, (hall.prepend version.encode).prepend magic⟩
  · rw [copies_take _ _ _ _ hmagic, Version.copies_decode _ _ _ hversion, copies_u16 _ _ _ hthis,
      copies_optionalIndex _ _ _ hsuper, listOf_eq_append copies_u16 hinterfaces hinterfacesPart,
      listOf_eq_append Attribute.copies_decode hattributes hattributesPart]
    simp only [id, List.append_assoc]
  · exact bind_eq_ok_iff.2 ⟨_, _, hmagic, bind_eq_ok_iff.2 ⟨_, _, hversion, bind_eq_ok_iff.2 ⟨_, _, hpoolSurvey,
      bind_eq_ok_iff.2 ⟨_, _, hflagsSurvey, bind_eq_ok_iff.2 ⟨_, _, hthis, bind_eq_ok_iff.2 ⟨_, _, hsuper,
      bind_eq_ok_iff.2 ⟨_, _, hinterfaces, bind_eq_ok_iff.2 ⟨_, _, hfieldsSurvey, bind_eq_ok_iff.2 ⟨_, _,
      hmethodsSurvey, bind_eq_ok_iff.2 ⟨_, _, hattributes, rfl⟩⟩⟩⟩⟩⟩⟩⟩⟩⟩

/-- A class that was read can be written, in no more bytes than it was read from. The same class is read back, and the
bytes are the same exactly if all texts are in their shortest form and all bits of flags are declared. -/
theorem toBytes_of_parse {bytes : Bytes} {file : ClassFile} (h : parse bytes = .ok file) :
    ∃ again marks, file.toBytes = .ok again ∧ again.length ≤ bytes.length ∧ parse again = .ok file ∧
      survey bytes = .ok (marks, []) ∧ (again = bytes ↔ ∀ mark ∈ marks, mark.IsCanonical) := by
  obtain ⟨again, hagain⟩ := exists_toBytes_iff.2 (writable_of_parse h).fits
  obtain ⟨front, marks, hfront, hsurvey, hrecoded⟩ :=
    recodes _ _ _ _ (parse_eq_ok_iff.1 h) (toBytes_eq_ok_iff.1 hagain)
  obtain rfl : bytes = front := hfront.trans (List.append_nil front)
  exact ⟨again, marks, hagain, hrecoded.length_le, parse_toBytes_of_parse h hagain, hsurvey, hrecoded.eq_iff⟩

/-- A class `A`, whose name takes two bytes, with a flag that classes do not have. -/
def overlongBytes : Bytes :=
  [0xCA, 0xFE, 0xBA, 0xBE, 0, 0, 0, 52, 0, 3, 1, 0, 2, 0xC1, 0x81, 7, 0, 1, 0, 3, 0, 2, 0, 0, 0, 0, 0, 0, 0, 0, 0, 0]

def shortestBytes : Bytes :=
  [0xCA, 0xFE, 0xBA, 0xBE, 0, 0, 0, 52, 0, 3, 1, 0, 1, 65, 7, 0, 1, 0, 1, 0, 2, 0, 0, 0, 0, 0, 0, 0, 0, 0, 0]

def shortestClass : ClassFile where
  version := ⟨0, 52⟩
  pool := [.utf8 "A", .classRef 1].foldl ConstantPool.store .empty
  flags := .ofBits 1
  thisClass := 2
  superClass := none
  interfaces := []
  fields := []
  methods := []
  attributes := []

theorem toBytes_of_parse_overlong :
    parse overlongBytes = .ok shortestClass ∧ shortestClass.toBytes = .ok shortestBytes ∧
      parse shortestBytes = .ok shortestClass ∧
      survey overlongBytes = .ok ([.text [0xC1, 0x81], .flags .class 3], []) ∧ shortestBytes ≠ overlongBytes := by
  have hparse : parse overlongBytes = .ok shortestClass := by with_unfolding_all rfl
  obtain ⟨again, marks, hagain, -, hread, hsurvey, hsame⟩ := toBytes_of_parse hparse
  obtain rfl : shortestBytes = again := Except.ok.inj (Eq.trans (by with_unfolding_all rfl) hagain)
  obtain rfl : [.text [0xC1, 0x81], .flags .class 3] = marks :=
    congrArg Prod.fst (Except.ok.inj (Eq.trans (by with_unfolding_all rfl) hsurvey))
  exact ⟨hparse, hagain, hread, hsurvey, fun heq => absurd (hsame.1 heq) (by decide)⟩

end ClassFile

end ClassSandbox
