import ClassSandbox.ClassFile.Attribute
import ClassSandbox.Proofs.Constant
import ClassSandbox.Proofs.ConstantPool
import ClassSandbox.Proofs.OffsetVector.Packed

/-!
# Constant pools are read back

In a pool that is `Numbered` the constants have the indices from one on, without gaps. Every pool is that is
`Built` by the operations, also by ones that fail (`Built.numbered`), and so is one that was read
(`yields_decode`). What is written of it is read back as a pool of the same constants (`reads_decode`), whose maps
may find others of them than the maps of the first one do.

All operations but `replace` are additions, which leave intact what appending leaves intact (`Addition.keeps`).
-/

namespace ClassSandbox

namespace ConstantPool

open OffsetVector

/-- The constants have the indices from one on, and all of these fit. -/
structure Numbered (pool : ConstantPool) : Prop where
  packed : pool.constants.Packed 1
  fits : pool.constants.nextOffset ≤ limit

/-- The pool that has only ever been appended to. Its maps find the first of several equal constants. -/
def rebuilt (pool : ConstantPool) : ConstantPool := pool.constants.elements.foldl store empty

variable {pool : ConstantPool} {constant : Constant}

theorem Numbered.ordered (h : pool.Numbered) : pool.constants.Ordered :=
  ordered_of_packed (fun constant _ => constant.width_pos) h.packed

theorem numbered_empty : empty.Numbered := ⟨packed_startingAt 1, by decide⟩

theorem numbered_store (h : pool.Numbered) (hfits : pool.constants.nextOffset + width constant ≤ limit) :
    (pool.store constant).Numbered where
  packed := by
    rw [constants_store]
    exact packed_push h.packed
  fits := by rwa [nextOffset_store]

theorem numbered_set (h : pool.Numbered) (index : ConstantIndex) (constant : Constant) :
    Numbered { pool with constants := pool.constants.set index.toNat constant } where
  packed := packed_set (fun constant _ => constant.width_pos) h.packed
  fits := by
    rw [nextOffset_set]
    exact h.fits

/-! ## Writing and reading -/

theorem constants_foldl_store (pool : ConstantPool) (constants : List Constant) :
    (constants.foldl store pool).constants = constants.foldl push pool.constants := by
  induction constants generalizing pool with
  | nil => rfl
  | cons constant constants ih => rw [List.foldl_cons, List.foldl_cons, ih, constants_store]

theorem elements_foldl_store (constants : List Constant) :
    (constants.foldl store empty).constants.elements = constants := by
  rw [constants_foldl_store, elements_foldl_push, empty, elements_startingAt, List.nil_append]

theorem decodeLoop_eq {constants : List Constant} {parts : List Bytes} {rest : Bytes}
    (h : List.Forall₂ (fun constant part => constant.encode = .ok part) constants parts) :
    decodeLoop (pool.constants.nextOffset + totalWidth constants) pool (parts.flatten ++ rest) =
      .ok (constants.foldl store pool, rest) := by
  induction h generalizing pool with
  | nil =>
    rw [decodeLoop, if_neg (by simp)]
    rfl
  | @cons constant part constants parts hfirst _ ih =>
    have hwidth := constant.width_pos
    have hstep := @ih (pool.store constant)
    rw [nextOffset_store, Nat.add_assoc, ← totalWidth_cons] at hstep
    rw [List.flatten_cons, List.append_assoc, decodeLoop, if_pos (by rw [totalWidth_cons]; omega),
      Constant.reads_decode hfirst]
    exact hstep

/-- The parts of the bytes of a pool. -/
theorem encode_eq_ok {bytes : Bytes} (h : pool.encode = .ok bytes) :
    ∃ parts, List.Forall₂ (fun constant part => constant.encode = .ok part) pool.constants.elements parts ∧
      bytes = Encoder.u16 (UInt16.ofNat pool.constants.nextOffset) ++ parts.flatten := by
  obtain ⟨body, hbody, h⟩ := except_bind_eq_ok_iff.1 h
  cases h
  obtain ⟨parts, hparts, rfl⟩ := Encoder.concat_eq_ok hbody
  exact ⟨parts, List.forall₂_map_left_iff.2 hparts, rfl⟩

theorem constants_rebuilt (h : pool.Numbered) : pool.rebuilt.constants = pool.constants := by
  rw [rebuilt, constants_foldl_store]
  exact foldl_push_elements h.packed

/-- A pool is read back with the same constants. -/
theorem reads_decode (h : pool.Numbered) {bytes : Bytes} (hbytes : pool.encode = .ok bytes) :
    Decoder.Reads decode bytes pool.rebuilt := by
  obtain ⟨parts, hparts, rfl⟩ := encode_eq_ok hbytes
  intro rest
  have hloop : decodeLoop pool.constants.nextOffset empty (parts.flatten ++ rest) = .ok (pool.rebuilt, rest) := by
    rw [h.packed.nextOffset]
    exact @decodeLoop_eq empty _ _ _ hparts
  rw [List.append_assoc]
  refine Decoder.bind_eq_ok_iff.2 ⟨_, _, Decoder.reads_u16 _ _, ?_⟩
  rw [toNat_ofNat_nextOffset h.fits]
  refine Decoder.bind_eq_ok_iff.2 ⟨_, rest, hloop, ?_⟩
  rw [if_pos (congrArg nextOffset (constants_rebuilt h))]
  rfl

/-- Writing a pool fails only if one of its texts is too long. -/
theorem exists_encode_iff :
    (∃ bytes, pool.encode = .ok bytes) ↔ ∀ constant ∈ pool.constants.elements, constant.Fits := by
  have hconcat : (∃ body, Encoder.concat (fun entry => Constant.encode entry.2) pool.constants.toList = .ok body) ↔
      ∀ constant ∈ pool.constants.elements, constant.Fits := by
    simp only [Encoder.exists_concat_iff, Constant.exists_encode_iff, elements, List.forall_mem_map]
  rw [← hconcat]
  constructor
  · rintro ⟨bytes, h⟩
    obtain ⟨body, hbody, -⟩ := except_bind_eq_ok_iff.1 h
    exact ⟨body, hbody⟩
  · rintro ⟨body, hbody⟩
    exact ⟨_, by rw [encode, hbody]; rfl⟩

/-- A pool that was read is numbered, can be written again, and is what is read back then. -/
theorem yields_decode : Decoder.Yields decode fun pool =>
    pool.Numbered ∧ (∀ constant ∈ pool.constants.elements, constant.Fits) ∧ pool.rebuilt = pool := by
  intro bytes pool rest h
  have hfits := fits_of_decode h
  obtain ⟨_, _, constants, -, hchain, rfl, -⟩ := exists_of_decode h
  refine ⟨⟨?_, hfits⟩, ?_, ?_⟩
  · rw [constants_foldl_store]
    exact packed_foldl_push (packed_startingAt 1) constants
  · rw [elements_foldl_store]
    exact hchain.forall_mem Constant.yields_decode
  · rw [rebuilt, elements_foldl_store]

end ConstantPool

/-! ## Operations -/

namespace PoolAction

/-- The operations that a pool offers. -/
inductive Operation : {α : Type} → PoolAction α → Prop where
  | append (constant : Constant) : Operation (append constant)
  | text (content : String) : Operation (text content)
  | classRef (name : String) : Operation (classRef name)
  | nameAndType (name descriptor : ConstantIndex) : Operation (nameAndType name descriptor)
  | replace (index : ConstantIndex) (constant : Constant) : Operation (replace index constant)
  | write {α : Type} (kind : AttributeKind α) (contents : α) : Operation (kind.write contents)

/-- The operations that leave alone what is there. -/
inductive Addition : {α : Type} → PoolAction α → Prop where
  | append (constant : Constant) : Addition (append constant)
  | text (content : String) : Addition (text content)
  | classRef (name : String) : Addition (classRef name)
  | nameAndType (name descriptor : ConstantIndex) : Addition (nameAndType name descriptor)
  | write {α : Type} (kind : AttributeKind α) (contents : α) : Addition (kind.write contents)

open ConstantPool

/-- The index of a constant that the maps may find, and that is appended if they do not. -/
def intern (constant : Constant) : PoolAction ConstantIndex := do
  match (← get).find? constant with
  | some index => return index
  | none => append constant

theorem outcome_intern (constant : Constant) (pool : ConstantPool) :
    outcome (intern constant) pool =
      match pool.find? constant with
      | some index => (.ok index, pool)
      | none => outcome (append constant) pool := by
  rw [intern, outcome_bind, outcome_get]
  cases hfound : pool.find? constant with
  | some index => simp only [hfound, outcome_pure]
  | none => simp only [hfound]

theorem text_eq_intern (content : String) : text content = intern (.utf8 content) := rfl

theorem classRef_eq_intern (name : String) :
    classRef name = (do intern (.classRef (← intern (.utf8 name)))) := rfl

theorem nameAndType_eq_intern (name descriptor : ConstantIndex) :
    nameAndType name descriptor = intern (.nameAndType name descriptor) := rfl

/-- Whatever appending leaves intact, all the other additions do, too. -/
theorem Addition.keeps {property : ConstantPool → Prop}
    (happend : ∀ constant, Keeps (PoolAction.append constant) property) {α : Type} {action : PoolAction α}
    (h : Addition action) : Keeps action property := by
  have hintern (constant : Constant) : Keeps (intern constant) property := by
    refine keeps_get.bind fun pool => ?_
    split
    · exact keeps_pure _
    · exact happend _
  cases h with
  | append constant => exact happend constant
  | text content =>
    rw [text_eq_intern]
    exact hintern _
  | classRef name =>
    rw [classRef_eq_intern]
    exact (hintern _).bind fun _ => hintern _
  | nameAndType name descriptor =>
    rw [nameAndType_eq_intern]
    exact hintern _
  | write kind contents =>
    rw [AttributeKind.write, text_eq_intern]
    refine (hintern _).bind fun name => ?_
    split
    · exact keeps_pure _
    · exact keeps_throw _

theorem append_keeps (constant : Constant) : Keeps (append constant) Numbered := by
  intro pool h
  rw [outcome_append]
  split
  · exact h
  · rename_i hfault
    exact numbered_store h (fits_of_appendFault? hfault)

theorem replace_keeps (index : ConstantIndex) (constant : Constant) : Keeps (replace index constant) Numbered := by
  refine (keeps_modify fun pool h => ?_).bind fun _ => keeps_get.bind fun pool => ?_
  · exact ⟨by rw [constants_remember]; exact h.packed, by rw [constants_remember]; exact h.fits⟩
  · split
    · exact keeps_modify fun pool h => numbered_set h index constant
    · exact keeps_throw _
    · exact keeps_throw _

/-- Whether it succeeds or not, an operation leaves the constants numbered. -/
theorem Operation.keeps_numbered {α : Type} {action : PoolAction α} (h : Operation action) :
    Keeps action Numbered := by
  cases h with
  | append constant => exact append_keeps constant
  | text content => exact (Addition.text content).keeps append_keeps
  | classRef name => exact (Addition.classRef name).keeps append_keeps
  | nameAndType name descriptor => exact (Addition.nameAndType name descriptor).keeps append_keeps
  | replace index constant => exact replace_keeps index constant
  | write kind contents => exact (Addition.write kind contents).keeps append_keeps

end PoolAction

namespace ConstantPool

/-- The pools that come from an empty one, or from one that was read, by any operations with any outcomes. -/
inductive Built : ConstantPool → Prop where
  | empty : Built empty
  | read {bytes rest : Bytes} {pool : ConstantPool} (h : decode bytes = .ok (pool, rest)) : Built pool
  | after {pool : ConstantPool} {α : Type} {action : PoolAction α} (built : Built pool)
      (operation : PoolAction.Operation action) : Built (outcome action pool).2

theorem Built.numbered {pool : ConstantPool} (h : pool.Built) : pool.Numbered := by
  induction h with
  | empty => exact numbered_empty
  | read h => exact (yields_decode _ _ _ h).1
  | after _ operation ih => exact operation.keeps_numbered _ ih

end ConstantPool

end ClassSandbox
