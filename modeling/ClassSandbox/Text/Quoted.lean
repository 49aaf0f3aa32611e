import ClassSandbox.Text.Hex
import ClassSandbox.Text.Hidden

/-!
# Quoted text

Error texts show the contents of a string constant in double quotes. A quote and a backslash follow a
backslash, the usual control characters have a letter, and hidden characters are shown by their number.
-/

namespace ClassSandbox.Text

def quotedChar (c : Char) : List Char :=
  if c = '\x00' then ['\\', '0']
  else if c = '\t' then ['\\', 't']
  else if c = '\r' then ['\\', 'r']
  else if c = '\n' then ['\\', 'n']
  else if c = '\\' ∨ c = '"' then ['\\', c]
  else if ' ' ≤ c ∧ c ≤ '~' then [c]
  else if isHidden c then ['\\', 'u', '\x7b'] ++ hexDigits c.toNat ++ ['\x7d']
  else [c]

def quoted (text : String) : String :=
  String.ofList ('"' :: text.toList.flatMap quotedChar ++ ['"'])

end ClassSandbox.Text
