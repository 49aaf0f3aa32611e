import ClassSandbox.ClassFile
import ClassSandbox.Proofs.ConstantPool

/-!
# Classes that were read from bytes

The pool of a class that was read from bytes is sound (`sound_of_parse`).
-/

namespace ClassSandbox.ClassFile

variable {file : ClassFile} {bytes rest : Bytes}

theorem exists_pool_of_decode (h : decode bytes = .ok (file, rest)) :
    ∃ before after, ConstantPool.decode before = .ok (file.pool, after) := by
  obtain ⟨found, _, -, h⟩ := Decoder.bind_eq_ok_iff.1 h
  split at h
  · obtain ⟨_, _, hfail, -⟩ := Decoder.bind_eq_ok_iff.1 h
    cases hfail
  · obtain ⟨version, before, -, h⟩ := Decoder.bind_eq_ok_iff.1 h
    obtain ⟨pool, after, hpool, h⟩ := Decoder.bind_eq_ok_iff.1 h
    obtain ⟨flags, _, -, h⟩ := Decoder.bind_eq_ok_iff.1 h
    obtain ⟨thisClass, _, -, h⟩ := Decoder.bind_eq_ok_iff.1 h
    obtain ⟨superClass, _, -, h⟩ := Decoder.bind_eq_ok_iff.1 h
    obtain ⟨interfaces, _, -, h⟩ := Decoder.bind_eq_ok_iff.1 h
    obtain ⟨fields, _, -, h⟩ := Decoder.bind_eq_ok_iff.1 h
    obtain ⟨methods, _, -, h⟩ := Decoder.bind_eq_ok_iff.1 h
    obtain ⟨attributes, _, -, h⟩ := Decoder.bind_eq_ok_iff.1 h
    obtain ⟨rfl, -⟩ := Decoder.pure_eq_ok_iff.1 h
    exact ⟨before, after, hpool⟩

/-- Reading a class reads its pool. -/
theorem exists_pool_of_parse (h : parse bytes = .ok file) :
    ∃ before after, ConstantPool.decode before = .ok (file.pool, after) := by
  unfold parse at h
  split at h
  · cases h
  · cases h
  · rename_i hdecode
    cases h
    exact exists_pool_of_decode hdecode
  · cases h

theorem sound_of_parse (h : parse bytes = .ok file) : file.pool.Sound := by
  obtain ⟨before, after, hpool⟩ := exists_pool_of_parse h
  exact ConstantPool.sound_of_decode hpool

end ClassSandbox.ClassFile
