import ClassSandbox.Bytes.Decoder
import ClassSandbox.Bytes.Encoder
import ClassSandbox.Constant

/-!
# The bytes of constants

A constant is a tag and then its contents. References to methods of classes and of interfaces are told
apart by their tags.
-/

namespace ClassSandbox

namespace HandleKind

def tag : HandleKind → UInt8
  | getField => 1
  | getStatic => 2
  | putField => 3
  | putStatic => 4
  | invokeVirtual => 5
  | invokeStatic => 6
  | invokeSpecial => 7
  | newInvokeSpecial => 8
  | invokeInterface => 9

def ofTag? : UInt8 → Option HandleKind
  | 1 => some getField
  | 2 => some getStatic
  | 3 => some putField
  | 4 => some putStatic
  | 5 => some invokeVirtual
  | 6 => some invokeStatic
  | 7 => some invokeSpecial
  | 8 => some newInvokeSpecial
  | 9 => some invokeInterface
  | _ => none

@[simp]
theorem ofTag?_tag (kind : HandleKind) : ofTag? kind.tag = some kind := by
  cases kind <;> rfl

def decode : Decoder HandleKind := do
  let tag ← Decoder.byte
  match ofTag? tag with
  | some kind => return kind
  | none => Decoder.fail (.badHandleKind tag)

def encode (kind : HandleKind) : Bytes := [kind.tag]

end HandleKind

namespace Constant

open Encoder in
def encode : Constant → Encoding
  | utf8 text => do
    let body := ModifiedUtf8.encode text
    let length ← Encoder.length .textBytes body.length
    return 1 :: length ++ body
  | integer value => return 3 :: i32 value
  | float bits => return 4 :: u32 bits
  | long value => return 5 :: i64 value
  | double bits => return 6 :: u64 bits
  | classRef name => return 7 :: u16 name
  | string text => return 8 :: u16 text
  | fieldRef owner member => return 9 :: u16 owner ++ u16 member
  | methodRef owner member inInterface =>
    return (if inInterface then 11 else 10) :: u16 owner ++ u16 member
  | nameAndType name descriptor => return 12 :: u16 name ++ u16 descriptor
  | methodHandle kind member => return 15 :: kind.encode ++ u16 member
  | methodType descriptor => return 16 :: u16 descriptor
  | dynamic bootstrap site => return 17 :: u16 bootstrap ++ u16 site
  | invokeDynamic bootstrap site => return 18 :: u16 bootstrap ++ u16 site
  | moduleRef name => return 19 :: u16 name
  | packageRef name => return 20 :: u16 name

open Decoder in
def decode : Decoder Constant := do
  let tag ← byte
  match tag with
  | 1 =>
    let length ← u16
    let body ← take length.toNat
    match ModifiedUtf8.decode body with
    | .ok text => return utf8 text
    | .error fault => fail (.badText fault)
  | 3 => return integer (← i32)
  | 4 => return float (← u32)
  | 5 => return long (← i64)
  | 6 => return double (← u64)
  | 7 => return classRef (← u16)
  | 8 => return string (← u16)
  | 9 => return fieldRef (← u16) (← u16)
  | 10 => return methodRef (← u16) (← u16) false
  | 11 => return methodRef (← u16) (← u16) true
  | 12 => return nameAndType (← u16) (← u16)
  | 15 => return methodHandle (← HandleKind.decode) (← u16)
  | 16 => return methodType (← u16)
  | 17 => return dynamic (← u16) (← u16)
  | 18 => return invokeDynamic (← u16) (← u16)
  | 19 => return moduleRef (← u16)
  | 20 => return packageRef (← u16)
  | tag => fail (.badConstantTag tag)

end Constant

end ClassSandbox
