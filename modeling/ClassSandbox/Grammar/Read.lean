import ClassSandbox.Grammar.Error

/-!
# Reading off the front of a text

A parser takes a type off the front of a text. What it took is a `Read`: the value, and the rest of the
text with the proof that it is shorter, which is what ends the loops of the grammar. `parseAll` runs a
parser on a whole text.
-/

namespace ClassSandbox

/-- What a parser took off the front of `text`. -/
structure Read (α : Type) (text : List Char) where
  value : α
  rest : List Char
  shorter : rest.length < text.length

namespace Read

variable {α β : Type} {text longer : List Char}

def map (f : α → β) (read : Read α text) : Read β text := ⟨f read.value, read.rest, read.shorter⟩

/-- What was read off the end part of a text was read off the text. -/
def within (read : Read α text) (h : text.length ≤ longer.length) : Read α longer :=
  ⟨read.value, read.rest, Nat.lt_of_lt_of_le read.shorter h⟩

end Read

/-- A parser reads off the front of any text, or says what is wrong there. -/
abbrev Parser (α : Type) := (text : List Char) → Except SyntaxFault (Read α text)

/-- The value of a text that the parser reads to its end. -/
def parseAll {α : Type} (parser : Parser α) (text : String) : Except SyntaxFault α :=
  match parser text.toList with
  | .error fault => .error fault
  | .ok ⟨value, [], _⟩ => .ok value
  | .ok ⟨_, found :: _, _⟩ => .error (.leftover found text)

/-- The value at the front of a text, with what is left of the text. -/
def parseFront {α : Type} (parser : Parser α) (text : String) : Except SyntaxFault (α × String) :=
  (parser text.toList).map fun read => (read.value, String.ofList read.rest)

/-! ## Lengths -/

theorem length_lt_cons (c : Char) (rest : List Char) : rest.length < (c :: rest).length :=
  Nat.lt_succ_self rest.length

theorem length_tail_le (text : List Char) : text.tail.length ≤ text.length :=
  (List.tail_sublist text).length_le

theorem length_dropWhile_le (p : Char → Bool) (text : List Char) :
    (text.dropWhile p).length ≤ text.length :=
  (List.dropWhile_sublist p).length_le

theorem length_lt_of_dropWhile {p : Char → Bool} {text rest : List Char} (h : text.dropWhile p = rest)
    (nonempty : text.takeWhile p ≠ []) : rest.length < text.length := by
  have whole : text.takeWhile p ++ rest = text := h ▸ List.takeWhile_append_dropWhile
  have count := congrArg List.length whole
  have positive : 0 < (text.takeWhile p).length := List.length_pos_iff.2 nonempty
  rw [List.length_append] at count
  omega

end ClassSandbox
