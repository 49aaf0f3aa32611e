/-!
# Blanks, lines and the last separator

Resource files are read line by line, and a line is cut into words at its blanks. `isBlank` is the
Unicode property `White_Space`, `words` and `trim` are stated with it, and `lines` cuts at line feeds.
A carriage return before a line feed stays in its line: it is a blank, so neither `words` nor `trim`
shows it. `splitLast?` cuts at the last occurrence of a character.
-/

namespace ClassSandbox.Text

/-- The characters with the Unicode property `White_Space`. -/
def isBlank (c : Char) : Bool :=
  let n := c.toNat
  (0x9 ≤ n && n ≤ 0xD) || n == 0x20 || n == 0x85 || n == 0xA0 || n == 0x1680 ||
    (0x2000 ≤ n && n ≤ 0x200A) || n == 0x2028 || n == 0x2029 || n == 0x202F || n == 0x205F || n == 0x3000

/-- The longest runs of characters that are not blank, in order. -/
def words (text : List Char) : List (List Char) :=
  (text.splitOnP isBlank).filter fun word => !word.isEmpty

/-- The text without the blanks at its two ends. -/
def trim (text : List Char) : List Char :=
  ((text.dropWhile isBlank).reverse.dropWhile isBlank).reverse

/-- The pieces between line feeds. An empty last piece is no line: a line feed ends the line before it. -/
def lines (text : List Char) : List (List Char) :=
  let pieces := text.splitOn '\n'
  if pieces.getLast? = some [] then pieces.dropLast else pieces

/-- The text before and after the last `separator`, if there is one. -/
def splitLast? (separator : Char) (text : List Char) : Option (List Char × List Char) :=
  match text.reverse.dropWhile (· != separator) with
  | [] => none
  | _ :: before => some (before.reverse, (text.reverse.takeWhile (· != separator)).reverse)

theorem splitLast?_eq_some {separator : Char} {text before after : List Char}
    (h : splitLast? separator text = some (before, after)) :
    text = before ++ separator :: after ∧ separator ∉ after := by
  unfold splitLast? at h
  split at h
  · cases h
  · next c rest hdrop =>
    simp only [Option.some.injEq, Prod.mk.injEq] at h
    obtain ⟨rfl, rfl⟩ := h
    have hc : c = separator := by
      have := List.head?_dropWhile_not (p := (· != separator)) (l := text.reverse)
      rw [hdrop] at this
      simpa using this
    have happ := List.takeWhile_append_dropWhile (p := (· != separator)) (l := text.reverse)
    rw [hdrop, hc] at happ
    constructor
    · have := congrArg List.reverse happ
      simpa using this.symm
    · intro hmem
      rw [List.mem_reverse] at hmem
      have := List.all_eq_true.1 List.all_takeWhile _ hmem
      simp at this

theorem splitLast?_append {separator : Char} {before after : List Char} (hfree : separator ∉ after) :
    splitLast? separator (before ++ separator :: after) = some (before, after) := by
  have hpass : ∀ c ∈ after.reverse, (c != separator) = true := fun c hc =>
    bne_iff_ne.2 fun heq => hfree (heq ▸ List.mem_reverse.1 hc)
  have hreverse : (before ++ separator :: after).reverse = after.reverse ++ separator :: before.reverse := by simp
  rw [splitLast?, hreverse, List.dropWhile_append_of_pos hpass, List.takeWhile_append_of_pos hpass]
  simp

end ClassSandbox.Text
