/-!
# Styled output

What the program prints is a sequence of spans, some of them in a style. On a terminal with colours a
styled span follows the control sequences that set its style, and a reset ends it. Elsewhere styles do not
show.
-/

namespace ClassSandbox

inductive Color where
  | red
  | green
  | yellow
  deriving DecidableEq, Repr

structure Style where
  bold : Bool
  dimmed : Bool
  color : Option Color
  deriving DecidableEq, Repr

/-- A text, with its style if it has one. -/
structure Span where
  style : Option Style
  text : String
  deriving DecidableEq, Repr

namespace Style

def done : Style := ⟨false, false, some .green⟩
def warning : Style := ⟨true, false, some .yellow⟩
def failure : Style := ⟨true, false, some .red⟩
def refused : Style := ⟨false, false, some .red⟩
def detail : Style := ⟨false, true, none⟩
def total : Style := ⟨true, false, none⟩

/-- A control sequence that selects how the text after it looks. -/
def select (code : Nat) : String := s!"\x1b[{code}m"

def reset : String := select 0

def Color.code : Color → Nat
  | .red => 31
  | .green => 32
  | .yellow => 33

/-- Sets the style, whatever was set before. -/
def set (style : Style) : String :=
  reset ++ (if style.bold then select 1 else "") ++ (if style.dimmed then select 2 else "") ++
    (style.color.map fun color => select (Color.code color)).getD ""

end Style

namespace Span

def plain (text : String) : Span := ⟨none, text⟩

def styled (style : Style) (text : String) : Span := ⟨some style, text⟩

def render (colored : Bool) (span : Span) : String :=
  match span.style with
  | some style => if colored then style.set ++ span.text ++ Style.reset else span.text
  | none => span.text

end Span

/-- The text of some spans. -/
def renderSpans (colored : Bool) (spans : List Span) : String :=
  String.join (spans.map (Span.render colored))

end ClassSandbox
