import ClassSandbox.Descriptor.Parser

/-!
# Descriptors

A descriptor that can be read shows by its first character whether it is that of a method
(`FieldType.head?_ne_of_parseAll`, `MethodDescriptor.head?_of_parseAll`).
-/

namespace ClassSandbox

theorem exists_read_of_parseAll {α : Type} {parser : Parser α} {text : String} {value : α}
    (h : parseAll parser text = .ok value) :
    ∃ read, parser text.toList = .ok read ∧ read.value = value ∧ read.rest = [] := by
  unfold parseAll at h
  split at h
  · cases h
  · rename_i hread
    cases h
    exact ⟨_, hread, rfl, rfl⟩
  · cases h

theorem FieldType.head?_ne_of_parseAll {descriptor : String} {type : FieldType BinaryName}
    (h : parseAll FieldType.read descriptor = .ok type) : descriptor.toList.head? ≠ some '(' := by
  obtain ⟨read, hread, -⟩ := exists_read_of_parseAll h
  generalize descriptor.toList = text at read hread
  cases text with
  | nil => cases hread
  | cons c rest =>
    rintro hhead
    cases hhead
    cases hread

theorem MethodDescriptor.head?_of_parseAll {descriptor : String} {parsed : MethodDescriptor BinaryName}
    (h : parseAll MethodDescriptor.read descriptor = .ok parsed) : descriptor.toList.head? = some '(' := by
  obtain ⟨read, hread, -⟩ := exists_read_of_parseAll h
  generalize descriptor.toList = text at read hread
  unfold MethodDescriptor.read at hread
  split at hread
  · rfl
  · cases hread

end ClassSandbox
