import ClassSandbox.Files.Path
import Mathlib.Data.List.Basic
import Mathlib.Data.List.TakeWhile

/-!
# Paths and their components

The components of a path below a directory are those of the directory and then its own, unless its own start says
where it begins (`components_join`). The last part of a path is looked up in its parent (`components_parent`), and what
is put behind a path belongs to its last part (`parts_append_of_not_mem`).
-/

namespace ClassSandbox

theorem Text.not_mem_of_splitLast? {separator : Char} {text : List Char} (h : splitLast? separator text = none) :
    separator ∉ text := by
  unfold splitLast? at h
  split at h
  · next hdrop =>
    intro hmem
    have := List.dropWhile_eq_nil_iff.1 hdrop separator (List.mem_reverse.2 hmem)
    simp at this
  · cases h

namespace Path

open Component

variable {path directory : String}

/-! ## Parts -/

theorem parts_append (front back : String) : parts (front ++ "/" ++ back) = parts front ++ parts back := by
  simp [parts, List.append_assoc, List.splitOn_append_cons_self]

theorem parts_ne_nil (path : String) : parts path ≠ [] := by
  simp [parts, List.splitOn_ne_nil]

theorem parts_of_not_mem (h : '/' ∉ path.toList) : parts path = [path] := by
  simp [parts, List.splitOn_eq_singleton h]

theorem parts_injective {path path' : String} (h : parts path = parts path') : path = path' := by
  have hsplit : path.toList.splitOn '/' = path'.toList.splitOn '/' :=
    (List.map_inj_right fun _ _ => String.ofList_inj.1).1 h
  have hjoin := congrArg ['/'].intercalate hsplit
  rwa [List.intercalate_splitOn, List.intercalate_splitOn, String.toList_inj] at hjoin

theorem eq_empty_of_parts (h : parts path = [""]) : path = "" := parts_injective (h.trans rfl)

/-- The last part stands alone, or behind a slash and all the others. -/
theorem parts_cases (path : String) :
    ('/' ∉ path.toList ∧ fileName path = path ∧ parent path = "") ∨
      ∃ front last : String, path = front ++ "/" ++ last ∧ '/' ∉ last.toList ∧ fileName path = last ∧
        parent path = if front = "" then "/" else front := by
  cases hlast : Text.splitLast? '/' path.toList with
  | none => exact .inl ⟨Text.not_mem_of_splitLast? hlast, by rw [fileName, hlast], by rw [parent, hlast]⟩
  | some found =>
    obtain ⟨front, last⟩ := found
    obtain ⟨htext, hfree⟩ := Text.splitLast?_eq_some hlast
    refine .inr ⟨String.ofList front, String.ofList last, ?_, by simpa using hfree, by rw [fileName, hlast], ?_⟩
    · rw [← String.toList_inj]
      simp [htext]
    · rw [parent, hlast]
      cases front <;> simp

/-- Without a slash in it, what is put behind a path belongs to its last part. -/
theorem parts_append_of_not_mem {suffix : String} (hfree : '/' ∉ suffix.toList) (path : String) :
    parts (path ++ suffix) = (parts path).dropLast ++ [(parts path).getLastD "" ++ suffix] := by
  have hone : ∀ {text : String}, '/' ∉ text.toList → parts (text ++ suffix) = [text ++ suffix] := fun h =>
    parts_of_not_mem (by simp [h, hfree])
  rcases parts_cases path with ⟨hnone, -, -⟩ | ⟨front, last, rfl, hlast, -, -⟩
  · rw [hone hnone, parts_of_not_mem hnone]
    rfl
  · rw [String.append_assoc, parts_append, parts_append, hone hlast, parts_of_not_mem hlast]
    simp

theorem fileName_eq_getLastD (path : String) : fileName path = (parts path).getLastD "" := by
  rcases parts_cases path with ⟨hnone, hfile, -⟩ | ⟨front, last, rfl, hlast, hfile, -⟩
  · rw [hfile, parts_of_not_mem hnone]
    rfl
  · rw [hfile, parts_append, parts_of_not_mem hlast]
    simp

theorem fileName_append (front back : String) : fileName (front ++ "/" ++ back) = fileName back := by
  rw [fileName_eq_getLastD, fileName_eq_getLastD, parts_append, List.getLastD_eq_getLast?, List.getLastD_eq_getLast?,
    List.getLast?_append_of_ne_nil _ (parts_ne_nil back)]

/-- Below a directory with a text, a relative path comes behind one slash. -/
theorem join_cases (hrelative : path.toList.head? ≠ some '/') (directory : String) :
    (directory = "" ∧ join directory path = path) ∨
      directory ≠ "" ∧ ∃ front, join directory path = front ++ "/" ++ path ∧
        (directory = front ∨ directory = front ++ "/" ++ "") := by
  rw [join, if_neg hrelative]
  by_cases hempty : directory = ""
  · exact .inl ⟨hempty, by rw [if_pos (.inl hempty), hempty, String.empty_append]⟩
  refine .inr ⟨hempty, ?_⟩
  by_cases hlast : directory.toList.getLast? = some '/'
  · obtain ⟨front, hfront⟩ := List.getLast?_eq_some_iff.1 hlast
    have hdirectory : directory = String.ofList front ++ "/" ++ "" := by
      rw [← String.toList_inj, hfront]
      simp
    exact ⟨String.ofList front, by rw [if_pos (.inr hlast), hdirectory, String.append_empty], .inr hdirectory⟩
  · exact ⟨directory, if_neg (by simp [hempty, hlast]), .inl rfl⟩

theorem fileName_join (directory path : String) : fileName (join directory path) = fileName path := by
  by_cases hslash : path.toList.head? = some '/'
  · rw [join, if_pos hslash]
  · rcases join_cases hslash directory with ⟨-, heq⟩ | ⟨-, front, heq, -⟩
    · rw [heq]
    · rw [heq, fileName_append]

/-- A path that starts with a slash has an empty part in front of it. -/
theorem head?_eq_slash_iff : path.toList.head? = some '/' ↔ ∃ rest, rest ≠ [] ∧ parts path = "" :: rest := by
  cases htext : path.toList with
  | nil => simp [parts, htext]
  | cons c text =>
    rw [List.head?_cons, Option.some.injEq, parts, htext, List.splitOn_cons_eq_if_modifyHead]
    by_cases hslash : c = '/'
    · simp [hslash, List.splitOn_ne_nil]
    · obtain ⟨first, others, hsplit⟩ := List.exists_cons_of_ne_nil (List.splitOn_ne_nil '/' text)
      simp [hslash, hsplit, ← String.toList_inj]

/-! ## Components -/

/-- A part is a name as soon as there is more in it than dots. -/
theorem ofPart?_of_mem {part : String} {c : Char} (hmem : c ∈ part.toList) (hdot : c ≠ '.') :
    ofPart? part = some (.normal part) := by
  have hother : ∀ text : String, (∀ d ∈ text.toList, d = '.') → part ≠ text := by
    rintro text hdots rfl
    exact hdot (hdots c hmem)
  have hhere : isHere part = false := by
    simp [isHere, hother "" (by simp), hother "." (by simp)]
  rw [ofPart?, hhere, if_neg Bool.false_ne_true, if_neg (hother ".." (by simp))]

theorem start_of_names {parts : List String} (h : ∀ part ∈ parts, ofPart? part = some (.normal part)) :
    start parts = [] := by
  cases parts with
  | nil => rfl
  | cons first rest =>
    have hfirst := h first List.mem_cons_self
    have hempty : first ≠ "" := by
      rintro rfl
      cases hfirst
    have hhere : first ≠ "." := by
      rintro rfl
      cases hfirst
    simp [start, hempty, hhere]

/-- The components of a path with only names for its parts. -/
theorem components_of_names (h : ∀ part ∈ parts path, ofPart? part = some (.normal part)) :
    components path = (parts path).map .normal := by
  rw [components, start_of_names h, List.nil_append, List.filterMap_eq_map_iff_forall_eq_some.2 h]

theorem start_append {front : List String} (hne : front ≠ []) (hempty : front ≠ [""]) (back : List String) :
    start (front ++ back) = start front := by
  cases front with
  | nil => exact absurd rfl hne
  | cons first rest =>
    cases rest with
    | nil =>
      have hfirst : first ≠ "" := fun heq => hempty (by rw [heq])
      simp [start, hfirst]
    | cons second rest => simp [start]

/-- Which parts follow the first one does not matter. -/
theorem start_append_congr {front back back' : List String} (hne : front ≠ []) (hback : back ≠ []) (hback' : back' ≠ []) :
    start (front ++ back) = start (front ++ back') := by
  cases front with
  | nil => exact absurd rfl hne
  | cons first rest => simp [start, hback, hback']

/-- A path below a directory, if its own start says nothing. -/
theorem components_join (hstart : start (parts path) = []) (directory : String) :
    components (join directory path) = components directory ++ components path := by
  have hrelative : path.toList.head? ≠ some '/' := by
    intro hslash
    obtain ⟨rest, hrest, hparts⟩ := head?_eq_slash_iff.1 hslash
    simp [hparts, start, hrest] at hstart
  have hpath : components path = (parts path).filterMap ofPart? := by rw [components, hstart, List.nil_append]
  rcases join_cases hrelative directory with ⟨rfl, heq⟩ | ⟨hne, front, heq, rfl | rfl⟩
  · rw [heq]
    rfl
  · rw [heq, hpath, components, components, parts_append,
      start_append (parts_ne_nil directory) (mt eq_empty_of_parts hne), List.filterMap_append, List.append_assoc]
  · have hstart' := start_append_congr (parts_ne_nil front) (parts_ne_nil path) (parts_ne_nil "")
    rw [heq, hpath, components, components, parts_append, parts_append, hstart', List.filterMap_append,
      List.filterMap_append]
    simp [parts, ofPart?, isHere]

/-- A last part that is a name comes behind the components of the parent. -/
theorem components_parent (hname : ofPart? (fileName path) = some (.normal (fileName path))) :
    components path = components (parent path) ++ [.normal (fileName path)] := by
  have hlastComponent : [fileName path].filterMap ofPart? = [.normal (fileName path)] := by
    rw [List.filterMap_cons_some hname, List.filterMap_nil]
  rcases parts_cases path with ⟨hnone, hfile, hparent⟩ | ⟨front, last, rfl, hlast, hfile, hparent⟩
  · have hnot : path ≠ "." := by
      intro heq
      rw [hfile, heq] at hname
      cases hname
    rw [hfile] at hlastComponent
    rw [hfile, hparent, components, parts_of_not_mem hnone, hlastComponent]
    simp [start, hnot, components, parts, ofPart?, isHere]
  · rw [hfile] at hlastComponent ⊢
    rw [hparent, components, parts_append, parts_of_not_mem hlast, List.filterMap_append, hlastComponent]
    by_cases hfront : front = ""
    · subst hfront
      rfl
    · rw [if_neg hfront, start_append (parts_ne_nil front) (mt eq_empty_of_parts hfront), components, List.append_assoc]

end Path

end ClassSandbox
