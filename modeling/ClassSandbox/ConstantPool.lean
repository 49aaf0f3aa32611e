import Std.Data.HashMap
import ClassSandbox.ClassFile.Error

/-!
# The constant pool

A pool is read from a class file and then only grows: the text of one constant may name a class and be a
string literal as well, so a text is never changed in place, and new texts are appended. `text`,
`classRef` and `nameAndType` find an equal constant before they append one, by way of the three maps that
`remember` fills. The first of several equal constants is the one that they find.

An action on the pool that fails keeps what it did before it failed, so `PoolAction` carries the pool
through failure.
-/

namespace ClassSandbox

structure ConstantPool where
  constants : OffsetVector Constant
  /-- Where each text is. -/
  texts : Std.HashMap String ConstantIndex
  /-- Where the class with the name at some index is. -/
  classes : Std.HashMap ConstantIndex ConstantIndex
  /-- Where the pair of the name and the descriptor at some indices is. -/
  nameAndTypes : Std.HashMap (ConstantIndex × ConstantIndex) ConstantIndex

/-- An action on a pool, which may fail half way. -/
abbrev PoolAction := ExceptT ClassFault (StateM ConstantPool)

namespace ConstantPool

/-- The greatest index of a constant, and the greatest length of a text. -/
def limit : Nat := 65535

def empty : ConstantPool := ⟨.startingAt 1, ∅, ∅, ∅⟩

instance : Inhabited ConstantPool := ⟨empty⟩

def size (pool : ConstantPool) : Nat := pool.constants.size

/-! ## Looking up -/

def constantAt (pool : ConstantPool) (index : ConstantIndex) : Except ClassFault Constant :=
  match pool.constants.get? index.toNat with
  | some constant => .ok constant
  | none => .error (.missingConstant index)

/-- The contents of a text constant. -/
def textAt (pool : ConstantPool) (index : ConstantIndex) : Except ClassFault String := do
  match ← pool.constantAt index with
  | .utf8 text => return text
  | found => throw (.unexpectedConstant index .utf8 found)

/-- The name of a class constant. -/
def classNameAt (pool : ConstantPool) (index : ConstantIndex) : Except ClassFault String := do
  match ← pool.constantAt index with
  | .classRef name => pool.textAt name
  | found => throw (.unexpectedConstant index .classRef found)

/-! ## Changing -/

/-- Has a constant found at an index, unless an equal one is already found elsewhere. -/
def remember (pool : ConstantPool) (index : ConstantIndex) (constant : Constant) : ConstantPool :=
  match constant with
  | .utf8 text => { pool with texts := pool.texts.insertIfNew text index }
  | .classRef name => { pool with classes := pool.classes.insertIfNew name index }
  | .nameAndType name descriptor =>
    { pool with nameAndTypes := pool.nameAndTypes.insertIfNew (name, descriptor) index }
  | _ => pool

/-- Has no class and no pair found at an index. -/
def forget (pool : ConstantPool) (index : ConstantIndex) : ConstantPool :=
  { pool with
    classes := pool.classes.filter fun _ found => found != index
    nameAndTypes := pool.nameAndTypes.filter fun _ found => found != index }

/-- Appends a constant without looking at limits. -/
def store (pool : ConstantPool) (constant : Constant) : ConstantPool :=
  let pool := pool.remember (UInt16.ofNat pool.constants.nextOffset) constant
  { pool with constants := pool.constants.push constant }

/-- What speaks against appending a constant. -/
def appendFault? (pool : ConstantPool) (constant : Constant) : Option ClassFault :=
  let tooLong := match constant with
    | .utf8 text =>
      let length := ModifiedUtf8.encodedLength text
      if limit < length then some (.textTooLong length) else none
    | _ => none
  tooLong <|>
    if pool.constants.nextOffset + width constant ≤ limit then none
    else some (.poolOverflow constant pool.constants.nextOffset)

def describe (pool : ConstantPool) : String := pool.constants.describe Constant.describe

/-! ## The view -/

theorem constants_remember (pool : ConstantPool) (index : ConstantIndex) (constant : Constant) :
    (pool.remember index constant).constants = pool.constants := by
  cases constant <;> rfl

theorem constants_store (pool : ConstantPool) (constant : Constant) :
    (pool.store constant).constants = pool.constants.push constant := by
  simp [store, constants_remember]

theorem nextOffset_store (pool : ConstantPool) (constant : Constant) :
    (pool.store constant).constants.nextOffset = pool.constants.nextOffset + width constant := by
  simp [constants_store, OffsetVector.push]

end ConstantPool

theorem Constant.width_pos (constant : Constant) : 0 < width constant := by
  cases constant <;> simp [width, HasWidth.width]

/-! ## Actions -/

namespace PoolAction

/-- Appends a constant, even if there is an equal one. -/
def append (constant : Constant) : PoolAction ConstantIndex := do
  match (← get).appendFault? constant with
  | some fault => throw fault
  | none =>
    let index := UInt16.ofNat (← get).constants.nextOffset
    modify fun pool => pool.store constant
    return index

/-- The index of a text, which is appended if it is not there. -/
def text (text : String) : PoolAction ConstantIndex := do
  match (← get).texts[text]? with
  | some index => return index
  | none => append (.utf8 text)

/-- The index of the class with a name. -/
def classRef (name : String) : PoolAction ConstantIndex := do
  let name ← text name
  match (← get).classes[name]? with
  | some index => return index
  | none => append (.classRef name)

/-- The index of a pair of a name and a descriptor. -/
def nameAndType (name descriptor : ConstantIndex) : PoolAction ConstantIndex := do
  match (← get).nameAndTypes[(name, descriptor)]? with
  | some index => return index
  | none => append (.nameAndType name descriptor)

/-- Replaces a constant by one of the same width. What is found at the index changes first, so it changes
even if there is nothing to replace. -/
def replace (index : ConstantIndex) (constant : Constant) : PoolAction Unit := do
  modify fun pool => (pool.forget index).remember index constant
  match (← get).constants.setFault? index.toNat constant with
  | none => modify fun pool => { pool with constants := pool.constants.set index.toNat constant }
  | some (.incompatibleWidth _ _) => throw (.malformed (.widthChange index))
  | some (.misplaced _) => throw (.missingConstant index)

end PoolAction

end ClassSandbox
