import ClassSandbox.Bytes.Decoder
import ClassSandbox.Bytes.Encoder
import ClassSandbox.Constant

/-!
# What is wrong with a class file

`ClassFault` lists the ways in which reading, changing or writing a class file fails. `Malformation` is the
part of them that lies in the structure of the file itself.
-/

namespace ClassSandbox

/-- What is wrong with the structure of a class file. -/
inductive Malformation where
  | endOfFile
  | invalid (fault : DataFault)
  | trailingBytes (count : Nat)
  | badAttribute (name : String) (fault : DecodeFault)
  | attributeTrailingBytes (name : String) (count : Nat)
  /-- A constant was to be replaced by one of another width. -/
  | widthChange (index : ConstantIndex)
  deriving DecidableEq, Repr

def Malformation.message : Malformation → String
  | endOfFile => "unexpected end of class file"
  | invalid fault => fault.message
  | trailingBytes count => s!"{count} trailing bytes after class"
  | badAttribute name fault => s!"{name} attribute: " ++ fault.message
  | attributeTrailingBytes name count => s!"{name} attribute has {count} trailing bytes"
  | widthChange index => s!"constant #{index} cannot change width"

/-- The kinds of constants that are looked up by index. -/
inductive ExpectedConstant where
  | utf8
  | classRef
  deriving DecidableEq, Repr

def ExpectedConstant.describe : ExpectedConstant → String
  | utf8 => "Utf8"
  | classRef => "Class"

inductive ClassFault where
  /-- The pool has no room for the constant, which was to go to the offset. -/
  | poolOverflow (constant : Constant) (offset : Nat)
  | badLength (fault : LengthFault)
  | malformed (fault : Malformation)
  | textTooLong (length : Nat)
  | missingConstant (index : ConstantIndex)
  | unexpectedConstant (index : ConstantIndex) (expected : ExpectedConstant) (found : Constant)
  deriving DecidableEq

def ClassFault.message : ClassFault → String
  | poolOverflow constant offset =>
    "constant pool overflow adding " ++ constant.describe ++ s!" at offset {offset}"
  | badLength fault => fault.message
  | malformed fault => "malformed class file: " ++ fault.message
  | textTooLong length => s!"string of {length} bytes is too long for a Utf8 constant (at most 65535)"
  | missingConstant index => s!"no constant at index #{index}"
  | unexpectedConstant index expected found =>
    "expected " ++ expected.describe ++ s!" constant at index #{index}, found " ++ found.describe

end ClassSandbox
