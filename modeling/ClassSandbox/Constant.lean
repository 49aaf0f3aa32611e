import ClassSandbox.Decimal.FloatText
import ClassSandbox.OffsetVector
import ClassSandbox.Text.Quoted

/-!
# Constants

The entries of a constant pool. They refer to one another by index, numbers are held as they are and
floating point numbers as their bits, so that no payload is lost. A long or double constant is two wide and
any other is one wide. `Constant.describe` is the text of a constant in error messages.
-/

namespace ClassSandbox

/-- The index of a constant in its pool. -/
abbrev ConstantIndex := UInt16

/-- What a method handle does with its member. -/
inductive HandleKind where
  | getField | getStatic | putField | putStatic
  | invokeVirtual | invokeStatic | invokeSpecial | newInvokeSpecial | invokeInterface
  deriving DecidableEq, Repr

def HandleKind.describe : HandleKind → String
  | getField => "GetField"
  | getStatic => "GetStatic"
  | putField => "PutField"
  | putStatic => "PutStatic"
  | invokeVirtual => "InvokeVirtual"
  | invokeStatic => "InvokeStatic"
  | invokeSpecial => "InvokeSpecial"
  | newInvokeSpecial => "NewInvokeSpecial"
  | invokeInterface => "InvokeInterface"

inductive Constant where
  | classRef (name : ConstantIndex)
  | fieldRef (owner member : ConstantIndex)
  | methodRef (owner member : ConstantIndex) (inInterface : Bool)
  | string (text : ConstantIndex)
  | integer (value : Int32)
  | float (bits : UInt32)
  | long (value : Int64)
  | double (bits : UInt64)
  | nameAndType (name descriptor : ConstantIndex)
  | utf8 (text : String)
  | methodHandle (kind : HandleKind) (member : ConstantIndex)
  | methodType (descriptor : ConstantIndex)
  | dynamic (bootstrap : UInt16) (site : ConstantIndex)
  | invokeDynamic (bootstrap : UInt16) (site : ConstantIndex)
  | moduleRef (name : ConstantIndex)
  | packageRef (name : ConstantIndex)
  deriving DecidableEq

namespace Constant

instance : HasWidth Constant where
  width
    | long _ | double _ => 2
    | _ => 1

/-- An index, named for what it points to. -/
def describeIndex (kind : String) (index : ConstantIndex) : String :=
  s!"{kind}ConstantIndex(ConstantIndex({index}))"

def describe : Constant → String
  | classRef name => "Class(" ++ describeIndex "Utf8" name ++ ")"
  | fieldRef owner member =>
    "FieldRef(" ++ describeIndex "Class" owner ++ ", " ++ describeIndex "NameAndType" member ++ ")"
  | methodRef owner member inInterface =>
    "MethodRef \x7b class: " ++ describeIndex "Class" owner ++ ", name_and_type: " ++
      describeIndex "NameAndType" member ++ s!", is_interface: {inInterface} \x7d"
  | string text => "String(" ++ describeIndex "Utf8" text ++ ")"
  | integer value => s!"Integer({value})"
  | float bits => "Float(" ++ Decimal.single.text bits.toNat ++ ")"
  | long value => s!"Long({value})"
  | double bits => "Double(" ++ Decimal.double.text bits.toNat ++ ")"
  | nameAndType name descriptor =>
    "NameAndType \x7b name: " ++ describeIndex "Utf8" name ++ ", descriptor: " ++
      describeIndex "Utf8" descriptor ++ " \x7d"
  | utf8 text => "Utf8(" ++ Text.quoted text ++ ")"
  | methodHandle kind member =>
    "MethodHandle \x7b handle_kind: " ++ kind.describe ++ s!", member: ConstantIndex({member}) \x7d"
  | methodType descriptor => "MethodType \x7b descriptor: " ++ describeIndex "Utf8" descriptor ++ " \x7d"
  | dynamic bootstrap site =>
    s!"Dynamic \x7b bootstrap_method: {bootstrap}, name_and_type: " ++
      describeIndex "NameAndType" site ++ " \x7d"
  | invokeDynamic bootstrap site =>
    s!"InvokeDynamic \x7b bootstrap_method: {bootstrap}, method_descriptor: " ++
      describeIndex "NameAndType" site ++ " \x7d"
  | moduleRef name => "Module(" ++ describeIndex "Utf8" name ++ ")"
  | packageRef name => "Package(" ++ describeIndex "Utf8" name ++ ")"

end Constant

end ClassSandbox
