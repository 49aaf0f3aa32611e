import ClassSandbox.ClassFile
import ClassSandbox.Proofs.ConstantPool.RoundTrip

/-!
# Class files are read back

A class can be written exactly when its lists and texts `Fit` into their lengths (`exists_toBytes_iff`), and what
is written of it is read back as a class with the same parts (`exists_parse_of_toBytes`). `parse_toBytes` says so
of every class whose pool was built by the operations of pools. Two things have no bytes of their own: a
superclass with the index zero, and more than 32 bits of an attribute's length.
-/

namespace ClassSandbox

open Decoder

/-! ## Parts of class files -/

namespace Attribute

theorem reads_decode {item : Attribute} (hinfo : item.info.length < UInt32.size) :
    Reads decode item.encode item := by
  unfold encode
  rw [List.append_assoc]
  refine (reads_u16 _).bind ((reads_u32 _).bind ?_)
  rw [UInt32.toNat_ofNat_of_lt' hinfo]
  exact (reads_take item.info).bind_pure

theorem yields_decode : Yields decode fun item => item.info.length < UInt32.size :=
  yields_bind fun _ => yields_bind fun length => (yields_take _).bind fun _ hinfo =>
    yields_pure (hinfo ▸ length.toNat_lt)

end Attribute

theorem AccessFlags.reads_decode {kind : Declared} (flags : AccessFlags kind) :
    Reads AccessFlags.decode flags.encode flags := by
  have h := (reads_u16 flags.bits).map (AccessFlags.ofBits : UInt16 → AccessFlags kind)
  rwa [AccessFlags.ofBits_bits] at h

theorem Version.reads_decode (version : Version) : Reads Version.decode version.encode version :=
  (reads_u16 version.minor).bind (reads_u16 version.major).bind_pure

theorem reads_optionalIndex {index : Option ConstantIndex} (h : index ≠ some 0) :
    Reads decodeOptionalIndex (encodeOptionalIndex index) index := by
  have hread := (reads_u16 (index.getD 0)).map fun found => if found = 0 then none else some found
  cases index with
  | none => exact hread
  | some found =>
    have hne : found ≠ 0 := fun hzero => h (congrArg some hzero)
    rw [Option.getD_some, if_neg hne] at hread
    exact hread

theorem reads_attributes {items : List Attribute} {bytes : Bytes}
    (hinfos : ∀ item ∈ items, item.info.length < UInt32.size)
    (h : Encoder.listOf (fun item => .ok item.encode) items = .ok bytes) :
    Reads (listOf Attribute.decode) bytes items := by
  refine reads_listOf (fun item hmem part hpart => ?_) h
  cases hpart
  exact Attribute.reads_decode (hinfos item hmem)

theorem exists_attributes_iff {items : List Attribute} :
    (∃ bytes, Encoder.listOf (fun item : Attribute => .ok item.encode) items = .ok bytes) ↔
      items.length < 0x10000 :=
  Encoder.exists_listOf_iff.trans (and_iff_left fun item _ => ⟨item.encode, rfl⟩)

namespace Member

variable {kind : Declared} {m : Member kind} {bytes : Bytes}

theorem reads_decode (hinfos : ∀ item ∈ m.attributes, item.info.length < UInt32.size) (h : m.encode = .ok bytes) :
    Reads decode bytes m := by
  obtain ⟨attributes, hattributes, h⟩ := except_bind_eq_ok_iff.1 h
  cases h
  rw [List.append_assoc, List.append_assoc]
  exact m.flags.reads_decode.bind ((reads_u16 _).bind ((reads_u16 _).bind
    (reads_attributes hinfos hattributes).bind_pure))

theorem exists_encode_iff : (∃ bytes, m.encode = .ok bytes) ↔ m.attributes.length < 0x10000 := by
  rw [← exists_attributes_iff]
  constructor
  · rintro ⟨bytes, h⟩
    obtain ⟨attributes, hattributes, -⟩ := except_bind_eq_ok_iff.1 h
    exact ⟨attributes, hattributes⟩
  · rintro ⟨attributes, hattributes⟩
    exact ⟨_, by rw [encode, hattributes]; rfl⟩

theorem yields_decode : Yields (decode : Decoder (Member kind)) fun m =>
    m.attributes.length < 0x10000 ∧ ∀ item ∈ m.attributes, item.info.length < UInt32.size :=
  yields_bind fun _ => yields_bind fun _ => yields_bind fun _ =>
    (yields_listOf Attribute.yields_decode).bind fun _ hattributes => yields_pure hattributes

end Member

/-! ## Whole classes -/

namespace ClassFile

/-- The attributes of the class, of its fields and of its methods. -/
def allAttributes (file : ClassFile) : List Attribute :=
  file.attributes ++ file.fields.flatMap Member.attributes ++ file.methods.flatMap Member.attributes

/-- The length of each list, and of each text, fits in two bytes. -/
structure Fits (file : ClassFile) : Prop where
  texts : ∀ constant ∈ file.pool.constants.elements, constant.Fits
  interfaces : file.interfaces.length < 0x10000
  fields : file.fields.length < 0x10000 ∧ ∀ field ∈ file.fields, field.attributes.length < 0x10000
  methods : file.methods.length < 0x10000 ∧ ∀ method ∈ file.methods, method.attributes.length < 0x10000
  attributes : file.attributes.length < 0x10000

/-- The classes have the same constants at the same indices, and are otherwise equal. -/
structure SameParts (file other : ClassFile) : Prop where
  constants : other.pool.constants = file.pool.constants
  others : other = { file with pool := other.pool }

variable {file : ClassFile} {bytes : Bytes}

/-- The parts of the bytes of a class. -/
theorem encode_eq_ok (h : file.encode = .ok bytes) :
    ∃ pool interfaces fields methods attributes, file.pool.encode = .ok pool ∧
      Encoder.listOf (fun index => .ok (Encoder.u16 index)) file.interfaces = .ok interfaces ∧
      Encoder.listOf Member.encode file.fields = .ok fields ∧
      Encoder.listOf Member.encode file.methods = .ok methods ∧
      Encoder.listOf (fun item => .ok item.encode) file.attributes = .ok attributes ∧
      bytes = magic ++ (file.version.encode ++ (pool ++ (file.flags.encode ++ (Encoder.u16 file.thisClass ++
        (encodeOptionalIndex file.superClass ++ (interfaces ++ (fields ++ (methods ++ attributes)))))))) := by
  obtain ⟨pool, hpool, h⟩ := except_bind_eq_ok_iff.1 h
  obtain ⟨interfaces, hinterfaces, h⟩ := except_bind_eq_ok_iff.1 h
  obtain ⟨fields, hfields, h⟩ := except_bind_eq_ok_iff.1 h
  obtain ⟨methods, hmethods, h⟩ := except_bind_eq_ok_iff.1 h
  obtain ⟨attributes, hattributes, h⟩ := except_bind_eq_ok_iff.1 h
  cases h
  exact ⟨pool, interfaces, fields, methods, attributes, hpool, hinterfaces, hfields, hmethods, hattributes,
    by simp only [List.append_assoc]⟩

theorem exists_encode_iff : (∃ bytes, file.encode = .ok bytes) ↔ file.Fits := by
  have hinterfaces : (∃ bytes, Encoder.listOf (fun index => .ok (Encoder.u16 index)) file.interfaces = .ok bytes) ↔
      file.interfaces.length < 0x10000 :=
    Encoder.exists_listOf_iff.trans (and_iff_left fun index _ => ⟨Encoder.u16 index, rfl⟩)
  have hfields := @Encoder.exists_listOf_iff _ Member.encode file.fields
  have hmethods := @Encoder.exists_listOf_iff _ Member.encode file.methods
  simp only [Member.exists_encode_iff] at hfields hmethods
  constructor
  · rintro ⟨bytes, h⟩
    obtain ⟨pool, interfaces, fields, methods, attributes, h1, h2, h3, h4, h5, -⟩ := encode_eq_ok h
    exact ⟨ConstantPool.exists_encode_iff.1 ⟨pool, h1⟩, hinterfaces.1 ⟨interfaces, h2⟩, hfields.1 ⟨fields, h3⟩,
      hmethods.1 ⟨methods, h4⟩, exists_attributes_iff.1 ⟨attributes, h5⟩⟩
  · intro h
    obtain ⟨pool, h1⟩ := ConstantPool.exists_encode_iff.2 h.texts
    obtain ⟨interfaces, h2⟩ := hinterfaces.2 h.interfaces
    obtain ⟨fields, h3⟩ := hfields.2 h.fields
    obtain ⟨methods, h4⟩ := hmethods.2 h.methods
    obtain ⟨attributes, h5⟩ := exists_attributes_iff.2 h.attributes
    exact ⟨_, by rw [encode, h1, h2, h3, h4, h5]; rfl⟩

theorem reads_decode (hpool : file.pool.Numbered) (hsuper : file.superClass ≠ some 0)
    (hinfos : ∀ item ∈ file.allAttributes, item.info.length < UInt32.size) (h : file.encode = .ok bytes) :
    Reads decode bytes { file with pool := file.pool.rebuilt } := by
  obtain ⟨pool, interfaces, fields, methods, attributes, h1, h2, h3, h4, h5, rfl⟩ := encode_eq_ok h
  simp only [allAttributes, List.mem_append, List.mem_flatMap] at hinfos
  have hinterfaces : Reads (listOf u16) interfaces file.interfaces := reads_listOf (fun index _ part hpart => by
    cases hpart
    exact reads_u16 index) h2
  have hfields : Reads (listOf Member.decode) fields file.fields := reads_listOf (fun field hmem part hpart =>
    Member.reads_decode (fun item hitem => hinfos item (.inl (.inr ⟨field, hmem, hitem⟩))) hpart) h3
  have hmethods : Reads (listOf Member.decode) methods file.methods := reads_listOf (fun method hmem part hpart =>
    Member.reads_decode (fun item hitem => hinfos item (.inr ⟨method, hmem, hitem⟩)) hpart) h4
  have hattributes := reads_attributes (fun item hitem => hinfos item (.inl (.inl hitem))) h5
  refine (reads_take magic).bind ?_
  rw [if_neg (fun hne => hne rfl)]
  exact file.version.reads_decode.bind ((ConstantPool.reads_decode hpool h1).bind (file.flags.reads_decode.bind
    ((reads_u16 _).bind ((reads_optionalIndex hsuper).bind (hinterfaces.bind (hfields.bind (hmethods.bind
      hattributes.bind_pure)))))))

theorem toBytes_eq_ok_iff : file.toBytes = .ok bytes ↔ file.encode = .ok bytes := by
  unfold toBytes
  split <;> simp_all

theorem parse_eq_ok_iff : parse bytes = .ok file ↔ decode bytes = .ok (file, []) := by
  unfold parse
  split <;> simp_all

theorem parse_of_reads {read : ClassFile} (h : Reads decode bytes read) : parse bytes = .ok read := by
  have hdecode := h []
  rw [List.append_nil] at hdecode
  exact parse_eq_ok_iff.2 hdecode

/-- What is written of a class is read back. -/
theorem exists_parse_of_toBytes (hpool : file.pool.Numbered) (hsuper : file.superClass ≠ some 0)
    (hinfos : ∀ item ∈ file.allAttributes, item.info.length < UInt32.size) (h : file.toBytes = .ok bytes) :
    ∃ read, parse bytes = .ok read ∧ SameParts file read := by
  have hread := reads_decode hpool hsuper hinfos (toBytes_eq_ok_iff.1 h)
  exact ⟨_, parse_of_reads hread, ConstantPool.constants_rebuilt hpool, rfl⟩

/-- A class can be written if its lists and texts fit, and otherwise one of them is too long. -/
theorem exists_toBytes_iff : (∃ bytes, file.toBytes = .ok bytes) ↔ file.Fits := by
  simp only [toBytes_eq_ok_iff, exists_encode_iff]

/-! ## Classes that were read -/

/-- The class can be written, and nothing in it is lost. -/
structure Writable (file : ClassFile) : Prop where
  numbered : file.pool.Numbered
  superClass : file.superClass ≠ some 0
  infos : ∀ item ∈ file.allAttributes, item.info.length < UInt32.size
  fits : file.Fits

theorem Writable.exists_parse (h : file.Writable) :
    ∃ bytes read, file.toBytes = .ok bytes ∧ parse bytes = .ok read ∧ SameParts file read := by
  obtain ⟨bytes, hbytes⟩ := exists_toBytes_iff.2 h.fits
  obtain ⟨read, hread, hsame⟩ := exists_parse_of_toBytes h.numbered h.superClass h.infos hbytes
  exact ⟨bytes, read, hbytes, hread, hsame⟩

theorem yields_optionalIndex : Yields decodeOptionalIndex fun index => index ≠ some 0 := by
  refine yields_bind fun index => yields_pure ?_
  split
  · exact nofun
  · rename_i hne
    exact fun heq => hne (Option.some.inj heq)

theorem yields_decode : Yields decode fun file => file.Writable ∧ file.pool.rebuilt = file.pool := by
  refine yields_bind fun found => ?_
  split
  · have hnone : Yields (fail (.badMagic found) : Decoder PUnit) fun _ => False := yields_fail _
    exact hnone.bind fun _ h => h.elim
  refine yields_bind fun version => ConstantPool.yields_decode.bind fun pool hpool => yields_bind fun flags =>
    yields_bind fun thisClass => yields_optionalIndex.bind fun superClass hsuper => ?_
  refine (yields_listOf fun _ _ _ _ => trivial).bind fun interfaces hinterfaces =>
    (yields_listOf Member.yields_decode).bind fun fields hfields =>
    (yields_listOf Member.yields_decode).bind fun methods hmethods =>
    (yields_listOf Attribute.yields_decode).bind fun attributes hattributes => yields_pure ?_
  refine ⟨⟨hpool.1, hsuper, fun item hmem => ?_, hpool.2.1, hinterfaces.1, ⟨hfields.1, fun field hmem =>
    (hfields.2 field hmem).1⟩, ⟨hmethods.1, fun method hmem => (hmethods.2 method hmem).1⟩, hattributes.1⟩, hpool.2.2⟩
  simp only [allAttributes, List.mem_append, List.mem_flatMap] at hmem
  rcases hmem with (hmem | ⟨field, hfield, hmem⟩) | ⟨method, hmethod, hmem⟩
  · exact hattributes.2 item hmem
  · exact (hfields.2 field hfield).2 item hmem
  · exact (hmethods.2 method hmethod).2 item hmem

theorem writable_of_parse (h : parse bytes = .ok file) : file.Writable :=
  (yields_decode _ _ _ (parse_eq_ok_iff.1 h)).1

/-- A class that was read is itself read back from what is written of it. -/
theorem parse_toBytes_of_parse {again : Bytes} (h : parse bytes = .ok file) (hagain : file.toBytes = .ok again) :
    parse again = .ok file := by
  obtain ⟨hwritable, hrebuilt⟩ := yields_decode _ _ _ (parse_eq_ok_iff.1 h)
  have hreads := reads_decode hwritable.numbered hwritable.superClass hwritable.infos (toBytes_eq_ok_iff.1 hagain)
  rw [hrebuilt] at hreads
  exact parse_of_reads hreads

/-! ## All classes -/

/-- What is written of a class with a pool of whatever history is read back, and it is written exactly if all its
lists and texts fit. -/
theorem parse_toBytes (hpool : file.pool.Built) (hsuper : file.superClass ≠ some 0)
    (hinfos : ∀ item ∈ file.allAttributes, item.info.length < UInt32.size) :
    (∀ bytes, file.toBytes = .ok bytes → ∃ read, parse bytes = .ok read ∧ SameParts file read) ∧
      (file.Fits → ∃ bytes, file.toBytes = .ok bytes) ∧
      (¬ file.Fits → ∃ fault, file.toBytes = .error (.badLength fault)) := by
  refine ⟨fun bytes h => exists_parse_of_toBytes hpool.numbered hsuper hinfos h, exists_toBytes_iff.2,
    fun hlong => ?_⟩
  cases hencode : file.encode with
  | ok bytes => exact absurd (exists_encode_iff.1 ⟨bytes, hencode⟩) hlong
  | error fault => exact ⟨fault, by rw [toBytes, hencode]⟩

/-- A long number, the name of a class and the class, which names the number until it is replaced. -/
def handledPool : ConstantPool :=
  let numbered := (outcome (PoolAction.append (.long 7)) .empty).2
  let named := (outcome (PoolAction.append (.utf8 "A")) numbered).2
  let declared := (outcome (PoolAction.append (.classRef 1)) named).2
  (outcome (PoolAction.replace 4 (.classRef 3)) declared).2

theorem built_handledPool : handledPool.Built :=
  (((ConstantPool.Built.empty.after (.append _)).after (.append _)).after (.append _)).after (.replace _ _)

/-- A class that is nothing but its name and an attribute of two bytes. -/
def handledClass : ClassFile where
  version := ⟨0, 52⟩
  pool := handledPool
  flags := .ofBits 0
  thisClass := 4
  superClass := none
  interfaces := []
  fields := []
  methods := []
  attributes := [⟨3, [1, 2]⟩]

def handledBytes : Bytes :=
  [0xCA, 0xFE, 0xBA, 0xBE, 0, 0, 0, 52, 0, 5, 5, 0, 0, 0, 0, 0, 0, 0, 7, 1, 0, 1, 65, 7, 0, 3, 0, 0, 0, 4, 0, 0,
    0, 0, 0, 0, 0, 0, 0, 1, 0, 3, 0, 0, 0, 2, 1, 2]

/-- A class with a constant of two slots and with one that was replaced. -/
theorem parse_toBytes_handled :
    handledClass.pool.Built ∧ handledClass.superClass ≠ some 0 ∧
    (∀ item ∈ handledClass.allAttributes, item.info.length < UInt32.size) ∧
    handledClass.toBytes = .ok handledBytes ∧
    ∃ read, parse handledBytes = .ok read ∧ SameParts handledClass read := by
  have hinfos : ∀ item ∈ handledClass.allAttributes, item.info.length < UInt32.size := by
    intro item hmem
    obtain rfl : item = ⟨3, [1, 2]⟩ := List.mem_singleton.1 hmem
    decide
  have hbytes : handledClass.toBytes = .ok handledBytes := by with_unfolding_all rfl
  have hsuper : handledClass.superClass ≠ some 0 := nofun
  exact ⟨built_handledPool, hsuper, hinfos, hbytes, (parse_toBytes built_handledPool hsuper hinfos).1 _ hbytes⟩

end ClassFile

end ClassSandbox
