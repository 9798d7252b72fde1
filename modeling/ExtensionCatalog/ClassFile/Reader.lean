/-
**Reading class files.**

A reader takes bytes off the front of its input or fails with a fault. Everything before the class
attributes is read in order; fields and attributes without meaning here are skipped by their
lengths.

* `ConstantPool.read`: the constants, eight-byte ones taking two places;
* `readTagged`, `readElementValue`: annotation values nested in each other, at most as deep as there
  are bytes;
* `ClassFile.parse`: the whole class file.
-/

import ExtensionCatalog.ClassFile.Basic
import ExtensionCatalog.ClassFile.Fault
import ExtensionCatalog.ClassFile.ModifiedUtf8

namespace ExtensionCatalog

/-- A function that takes bytes off the front of its input. -/
abbrev ByteReader := StateT Bytes (Except ClassFileFault)

namespace ByteReader

/-- The next `count` bytes. -/
def take (count : Nat) : ByteReader Bytes := fun input =>
  match input.takeExact count with
  | some result => .ok result
  | none => .error .truncated

/-- The number spelled by the next `width` bytes. -/
def number (width : Nat) : ByteReader Nat := do
  return (← take width).bigEndian

def one : ByteReader UInt8 := do
  return (← number 1).toUInt8

def two : ByteReader UInt16 := do
  return (← number 2).toUInt16

def four : ByteReader UInt32 := do
  return (← number 4).toUInt32

def eight : ByteReader UInt64 := do
  return (← number 8).toUInt64

/-- What a reader yields when it is used `count` times. -/
def times {α : Type} : Nat → ByteReader α → ByteReader (List α)
  | 0, _ => return []
  | count + 1, reader => do
    let first ← reader
    return first :: (← times count reader)

/-- What a reader yields on an input of its own. -/
def within {α : Type} (body : Bytes) (reader : ByteReader α) : ByteReader α := do
  return (← reader body).1

end ByteReader

open ByteReader

/-- A constant; those that annotations cannot refer to are not told apart. -/
inductive Constant where
  | string (value : String)
  | integer (value : Int32)
  | float (bits : UInt32)
  | long (value : Int64)
  | double (bits : UInt64)
  | classRef (name : UInt16)
  | other

/-- Whether a constant takes two places. -/
def Constant.isWide : Constant → Bool
  | long _ => true
  | double _ => true
  | _ => false

/-- The constants by place. Place zero and the second places of wide constants are empty. -/
abbrev ConstantPool := Array (Option Constant)

namespace ConstantPool

/-- The constant at a place. -/
def constant (pool : ConstantPool) (index : UInt16) : Except ClassFileFault Constant :=
  match pool[index.toNat]? with
  | some (some constant) => .ok constant
  | _ => .error (.invalidIndex index)

/-- The string constant at a place. -/
def string (pool : ConstantPool) (index : UInt16) : Except ClassFileFault String := do
  match ← pool.constant index with
  | .string value => return value
  | _ => throw (.notString index)

/-- The integer constant at a place. -/
def integer (pool : ConstantPool) (index : UInt16) : Except ClassFileFault Int32 := do
  match ← pool.constant index with
  | .integer value => return value
  | _ => throw (.notInteger index)

/-- The name of the class constant at a place. -/
def className (pool : ConstantPool) (index : UInt16) : Except ClassFileFault String := do
  match ← pool.constant index with
  | .classRef name => return ClassName.binaryName (← pool.string name)
  | _ => throw (.notClass index)

/-- Read the constant for a place. -/
def readConstant (index : Nat) : ByteReader Constant := do
  let tag ← one
  match tag.toNat with
  | 1 =>
    let text ← take (← two).toNat
    match ModifiedUtf8.decode? text with
    | some value => return .string (String.ofList value)
    | none => throw (.malformedString index)
  | 3 => return .integer (← four).toInt32
  | 4 => return .float (← four)
  | 5 => return .long (← eight).toInt64
  | 6 => return .double (← eight)
  | 7 => return .classRef (← two)
  | 8 | 16 | 19 | 20 =>
    let _ ← take 2
    return .other
  | 9 | 10 | 11 | 12 | 17 | 18 =>
    let _ ← take 4
    return .other
  | 15 =>
    let _ ← take 3
    return .other
  | _ => throw (.unknownConstantTag tag)

/-- Read constants for a number of places, the first of which is `index`. -/
def readPlaces : Nat → Nat → ByteReader (List (Option Constant))
  | 0, _ => return []
  | places + 1, index => do
    let constant ← readConstant index
    if constant.isWide then
      match places with
      | 0 => throw .poolOverrun
      | fewer + 1 => return some constant :: none :: (← readPlaces fewer (index + 2))
    else return some constant :: (← readPlaces places (index + 1))

/-- Read a constant pool, led by its number of places. -/
def read : ByteReader ConstantPool := do
  match (← two).toNat with
  | 0 => throw .poolOverrun
  | places + 1 => return (none :: (← readPlaces places 1)).toArray

end ConstantPool

/-! ### Annotations -/

/-- Read an annotation whose values are read by `value`. -/
def readMark (pool : ConstantPool) (value : ByteReader ElementValue) :
    ByteReader Annotation := do
  let typeName ← pool.string (← two)
  let count ← two
  let elements ← times count.toNat do
    let name ← pool.string (← two)
    return (name, ← value)
  return ⟨ClassName.descriptorName typeName, elements⟩

/-- The character with the code of an integer constant, if there is one. -/
def characterOf (code : Int32) : Char :=
  let code := code.toUInt32.toNat
  if code.isValidChar then Char.ofNat code else Char.ofNat 0xFFFD

/-- Read what stands behind the letter of an element value; values in it are read by `value`. -/
def readTagged (pool : ConstantPool) (value : ByteReader ElementValue) (tag : UInt8) :
    ByteReader ElementValue := do
  match Char.ofNat tag.toNat with
  | 'B' => return .byte (← pool.integer (← two)).toInt8
  | 'C' => return .char (characterOf (← pool.integer (← two)))
  | 'S' => return .short (← pool.integer (← two)).toInt16
  | 'I' => return .int (← pool.integer (← two))
  | 'Z' => return .boolean ((← pool.integer (← two)) != 0)
  | 'J' =>
    match ← pool.constant (← two) with
    | .long value => return .long value
    | _ => throw .notLong
  | 'F' =>
    match ← pool.constant (← two) with
    | .float bits => return .float bits
    | _ => throw .notFloat
  | 'D' =>
    match ← pool.constant (← two) with
    | .double bits => return .double bits
    | _ => throw .notDouble
  | 's' => return .string (← pool.string (← two))
  | 'e' =>
    let typeIndex ← two
    let constantIndex ← two
    let typeName ← pool.string typeIndex
    return .constant (ClassName.descriptorName typeName) (← pool.string constantIndex)
  | 'c' => return .classLiteral (ClassName.descriptorName (← pool.string (← two)))
  | '@' =>
    let mark ← readMark pool value
    return .nested mark.typeName mark.elements
  | '[' =>
    let count ← two
    return .array (← times count.toNat value)
  | _ => throw (.unknownElementTag tag)

/-- Read an element value in which values are nested less than `depth` deep. A value has at least
three bytes before the values in it, so a depth of the number of bytes is never used up before
they are. -/
def readElementValue (pool : ConstantPool) : Nat → ByteReader ElementValue
  | 0 => throw .truncated
  | depth + 1 => do readTagged pool (readElementValue pool depth) (← one)

/-- Read the value that makes up an attribute body. -/
def defaultValue (pool : ConstantPool) (body : Bytes) : ByteReader ElementValue :=
  within body (readElementValue pool body.length)

/-- Read the annotations that make up an attribute body. -/
def annotationList (pool : ConstantPool) (body : Bytes) : ByteReader (List Annotation) :=
  within body do
    let count ← two
    times count.toNat (readMark pool (readElementValue pool body.length))

/-! ### Classes -/

/-- Read the name and the body of an attribute. -/
def readAttribute (pool : ConstantPool) : ByteReader (String × Bytes) := do
  let nameIndex ← two
  let length ← four
  let name ← pool.string nameIndex
  return (name, ← take length.toNat)

/-- Skip a field. -/
def readField (pool : ConstantPool) : ByteReader Unit := do
  let _ ← take 6
  let count ← two
  let _ ← times count.toNat (readAttribute pool)
  return ()

/-- The attribute that holds the default value of an annotation element. -/
def defaultAttribute : String := "AnnotationDefault"

/-- The attribute that holds the annotations of a class. -/
def annotationsAttribute : String := "RuntimeVisibleAnnotations"

/-- Read a method: its name with each default value that it declares. -/
def readMethod (pool : ConstantPool) : ByteReader (List (String × ElementValue)) := do
  let _ ← two
  let nameIndex ← two
  let _ ← two
  let name ← pool.string nameIndex
  let count ← two
  let defaults ← times count.toNat do
    let (label, body) ← readAttribute pool
    if label = defaultAttribute then return [(name, ← defaultValue pool body)] else return []
  return defaults.flatten

/-- Read a class attribute: the annotations in it. -/
def readClassAttribute (pool : ConstantPool) : ByteReader (List Annotation) := do
  let (label, body) ← readAttribute pool
  if label = annotationsAttribute then annotationList pool body else return []

namespace ClassFile

/-- The number that every class file starts with. -/
def magic : UInt32 := 0xCAFEBABE

/-- Read a class file. -/
def read : ByteReader ClassFile := do
  if (← four) ≠ magic then throw .badMagic
  let minorVersion ← two
  let majorVersion ← two
  let pool ← ConstantPool.read
  let accessFlags ← two
  let name ← pool.className (← two)
  let superIndex ← two
  let superName ← if superIndex = 0 then pure none else some <$> pool.className superIndex
  let interfaceCount ← two
  let interfaces ← times interfaceCount.toNat do
    let index ← two
    pool.className index
  let fieldCount ← two
  let _ ← times fieldCount.toNat (readField pool)
  let methodCount ← two
  let defaults ← times methodCount.toNat (readMethod pool)
  let attributeCount ← two
  let annotations ← times attributeCount.toNat (readClassAttribute pool)
  return {
    minorVersion, majorVersion, accessFlags, name, superName, interfaces
    annotations := annotations.flatten
    defaults := .ofList defaults.flatten }

/-- The class file that bytes begin with. -/
def parse (bytes : Bytes) : Except ClassFileFault ClassFile := do
  return (← read bytes).1

end ClassFile

end ExtensionCatalog
