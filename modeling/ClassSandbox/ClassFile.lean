import ClassSandbox.AccessFlags
import ClassSandbox.ClassFile.Attribute

/-!
# Class files

A `ClassFile` is the format in which the Java virtual machine loads a class. `ClassFile.parse` reads one
from bytes that hold nothing else, and `ClassFile.toBytes` writes it.
-/

namespace ClassSandbox

structure Version where
  minor : UInt16
  major : UInt16
  deriving DecidableEq, Repr

/-- A field or a method. -/
structure Member (kind : Declared) where
  flags : AccessFlags kind
  name : ConstantIndex
  descriptor : ConstantIndex
  attributes : List Attribute
  deriving DecidableEq

abbrev Field := Member .field
abbrev Method := Member .method

structure ClassFile where
  version : Version
  pool : ConstantPool
  flags : AccessFlags .class
  thisClass : ConstantIndex
  /-- Absent for the root of all classes, and for module descriptions. -/
  superClass : Option ConstantIndex
  interfaces : List ConstantIndex
  fields : List Field
  methods : List Method
  attributes : List Attribute

/-! ## Names -/

namespace ClassFile

def thisName (file : ClassFile) : Except ClassFault String := file.pool.classNameAt file.thisClass

def superName (file : ClassFile) : Except ClassFault (Option String) :=
  file.superClass.mapM file.pool.classNameAt

/-- The names of the interfaces that the class itself declares, in order. -/
def interfaceNames (file : ClassFile) : Except ClassFault (List String) :=
  file.interfaces.mapM file.pool.classNameAt

end ClassFile

/-! ## Bytes -/

namespace Version

def decode : Decoder Version := do
  let minor ← Decoder.u16
  let major ← Decoder.u16
  return ⟨minor, major⟩

def encode (version : Version) : Bytes := Encoder.u16 version.minor ++ Encoder.u16 version.major

end Version

namespace Member

variable {kind : Declared}

def decode : Decoder (Member kind) := do
  let flags ← AccessFlags.decode
  let name ← Decoder.u16
  let descriptor ← Decoder.u16
  let attributes ← Decoder.listOf Attribute.decode
  return ⟨flags, name, descriptor, attributes⟩

def encode (m : Member kind) : Encoding := do
  let attributes ← Encoder.listOf (fun item => .ok item.encode) m.attributes
  return m.flags.encode ++ Encoder.u16 m.name ++ Encoder.u16 m.descriptor ++ attributes

end Member

/-- An optional index, with zero for none. -/
def decodeOptionalIndex : Decoder (Option ConstantIndex) := do
  let index ← Decoder.u16
  return if index = 0 then none else some index

def encodeOptionalIndex (index : Option ConstantIndex) : Bytes := Encoder.u16 (index.getD 0)

namespace ClassFile

/-- The bytes with which every class file starts. -/
def magic : Bytes := [0xCA, 0xFE, 0xBA, 0xBE]

def decode : Decoder ClassFile := do
  let found ← Decoder.take 4
  if found ≠ magic then Decoder.fail (.badMagic found)
  let version ← Version.decode
  let pool ← ConstantPool.decode
  let flags ← AccessFlags.decode
  let thisClass ← Decoder.u16
  let superClass ← decodeOptionalIndex
  let interfaces ← Decoder.listOf Decoder.u16
  let fields ← Decoder.listOf Member.decode
  let methods ← Decoder.listOf Member.decode
  let attributes ← Decoder.listOf Attribute.decode
  return { version, pool, flags, thisClass, superClass, interfaces, fields, methods, attributes }

def encode (file : ClassFile) : Encoding := do
  let pool ← file.pool.encode
  let interfaces ← Encoder.listOf (fun index => .ok (Encoder.u16 index)) file.interfaces
  let fields ← Encoder.listOf Member.encode file.fields
  let methods ← Encoder.listOf Member.encode file.methods
  let attributes ← Encoder.listOf (fun item => .ok item.encode) file.attributes
  return magic ++ file.version.encode ++ pool ++ file.flags.encode ++ Encoder.u16 file.thisClass ++
    encodeOptionalIndex file.superClass ++ interfaces ++ fields ++ methods ++ attributes

/-- Reads exactly one class. -/
def parse (bytes : Bytes) : Except ClassFault ClassFile :=
  match decode bytes with
  | .error .endOfInput => .error (.malformed .endOfFile)
  | .error (.invalid fault) => .error (.malformed (.invalid fault))
  | .ok (file, []) => .ok file
  | .ok (_, rest) => .error (.malformed (.trailingBytes rest.length))

def toBytes (file : ClassFile) : Except ClassFault Bytes :=
  match file.encode with
  | .ok bytes => .ok bytes
  | .error fault => .error (.badLength fault)

end ClassFile

end ClassSandbox
