/-
**Class files as they are laid out.**

A class file is a list of constants and a tree of structures that refer to the constants by index.
Whatever is read out of it is the constant at an index; the rest may be anything.

* `Bytes.spell`: the bytes of a number;
* `Entry`, `Scalar`, `Value`, `Mark`, `Attribute`, `Part`, `Field`, `Method`, `Layout`: the parts of
  a class file, each with its `bytes`;
* `fits`: every count and length can be written in the bytes that there are for it;
* `denoted?`, `text?`, `integer?`, `className?`: the constant that an index denotes;
* `Value.denotes?`, `Mark.denotes?`: what values and annotations say;
* `Describes`: what a whole layout says, as long as every index that is read denotes a constant of
  the right kind and every integer is in the range of its element.
-/

import ExtensionCatalog.ClassFile.Reader

namespace ExtensionCatalog

/-- The bytes of a number, the most significant one first. -/
def Bytes.spell : Nat → Nat → Bytes
  | 0, _ => []
  | width + 1, number => spell width (number / 0x100) ++ [number.toUInt8]

namespace ClassFile.Layout

/-- The bytes of items that follow each other, led by their number. -/
def counted {α : Type} (write : α → Bytes) (items : List α) : Bytes :=
  Bytes.spell 2 items.length ++ items.flatMap write

/-! ### Constants -/

/-- What constants of one index are for. -/
inductive Link where
  | string
  | methodType
  | moduleName
  | packageName
deriving DecidableEq

def Link.tag : Link → UInt8
  | string => 8
  | methodType => 16
  | moduleName => 19
  | packageName => 20

/-- What constants of two indices are for. -/
inductive Join where
  | field
  | method
  | interfaceMethod
  | nameAndType
  | dynamic
  | invokeDynamic
deriving DecidableEq

def Join.tag : Join → UInt8
  | field => 9
  | method => 10
  | interfaceMethod => 11
  | nameAndType => 12
  | dynamic => 17
  | invokeDynamic => 18

/-- A constant as it is written. -/
inductive Entry where
  | text (value : String)
  | integer (value : Int32)
  | float (bits : UInt32)
  | long (value : Int64)
  | double (bits : UInt64)
  | classRef (name : UInt16)
  | link (kind : Link) (index : UInt16)
  | join (kind : Join) (first second : UInt16)
  | methodHandle (kind : UInt8) (reference : UInt16)
deriving DecidableEq

namespace Entry

def bytes : Entry → Bytes
  | text value =>
    let body := ModifiedUtf8.encode value.toList
    [1] ++ (Bytes.spell 2 body.length ++ body)
  | integer value => [3] ++ Bytes.spell 4 value.toUInt32.toNat
  | float bits => [4] ++ Bytes.spell 4 bits.toNat
  | long value => [5] ++ Bytes.spell 8 value.toUInt64.toNat
  | double bits => [6] ++ Bytes.spell 8 bits.toNat
  | classRef name => [7] ++ Bytes.spell 2 name.toNat
  | link kind index => [kind.tag] ++ Bytes.spell 2 index.toNat
  | join kind first second =>
    [kind.tag] ++ (Bytes.spell 2 first.toNat ++ Bytes.spell 2 second.toNat)
  | methodHandle kind reference => [15] ++ ([kind] ++ Bytes.spell 2 reference.toNat)

/-- The number of places that a constant takes. -/
def places : Entry → Nat
  | long _ => 2
  | double _ => 2
  | _ => 1

def fits : Entry → Bool
  | text value => (ModifiedUtf8.encode value.toList).length < 0x10000
  | _ => true

end Entry

/-- The number of places that constants take. -/
def places : List Entry → Nat
  | [] => 0
  | entry :: rest => entry.places + places rest

/-- The bytes of constants, led by the number of places and the empty one. -/
def poolBytes (pool : List Entry) : Bytes :=
  Bytes.spell 2 (places pool + 1) ++ pool.flatMap Entry.bytes

/-- The constant that begins at a place. -/
def entryAt? : List Entry → Nat → Option Entry
  | [], _ => none
  | entry :: _, 0 => some entry
  | entry :: rest, place + 1 =>
    if place + 1 < entry.places then none else entryAt? rest (place + 1 - entry.places)

/-- The constant that an index denotes. The first place has index one. -/
def denoted? (pool : List Entry) (index : UInt16) : Option Entry :=
  if index = 0 then none else entryAt? pool (index.toNat - 1)

section Pool

variable (pool : List Entry)

/-- The text that an index denotes. -/
def text? (index : UInt16) : Option String :=
  match denoted? pool index with
  | some (.text value) => some value
  | _ => none

/-- The integer that an index denotes. -/
def integer? (index : UInt16) : Option Int32 :=
  match denoted? pool index with
  | some (.integer value) => some value
  | _ => none

/-- The name of the class that an index denotes. -/
def className? (index : UInt16) : Option String :=
  match denoted? pool index with
  | some (.classRef name) => (text? pool name).map ClassName.binaryName
  | _ => none

end Pool

/-! ### Annotations -/

/-- The kinds of element values that are one constant. -/
inductive Scalar where
  | byte
  | char
  | short
  | int
  | boolean
  | long
  | float
  | double
  | string
  | classLiteral
deriving DecidableEq

/-- The letter that a kind is written as. -/
def Scalar.letter : Scalar → Char
  | byte => 'B'
  | char => 'C'
  | short => 'S'
  | int => 'I'
  | boolean => 'Z'
  | long => 'J'
  | float => 'F'
  | double => 'D'
  | string => 's'
  | classLiteral => 'c'

/-- A value of an annotation element as it is written. -/
inductive Value where
  | scalar (kind : Scalar) (index : UInt16)
  /-- A constant of an enum type. -/
  | constant (typeName constantName : UInt16)
  | nested (typeName : UInt16) (elements : List (UInt16 × Value))
  | array (values : List Value)

mutual

def Value.bytes : Value → Bytes
  | .scalar kind index => [kind.letter.toUInt8] ++ Bytes.spell 2 index.toNat
  | .constant typeName constantName =>
    ['e'.toUInt8] ++ (Bytes.spell 2 typeName.toNat ++ Bytes.spell 2 constantName.toNat)
  | .nested typeName elements =>
    ['@'.toUInt8] ++
      (Bytes.spell 2 typeName.toNat ++ (Bytes.spell 2 elements.length ++ elementsBytes elements))
  | .array values => ['['.toUInt8] ++ (Bytes.spell 2 values.length ++ valuesBytes values)

def elementsBytes : List (UInt16 × Value) → Bytes
  | [] => []
  | (name, value) :: rest => Bytes.spell 2 name.toNat ++ value.bytes ++ elementsBytes rest

def valuesBytes : List Value → Bytes
  | [] => []
  | value :: rest => value.bytes ++ valuesBytes rest

end

mutual

def Value.fits : Value → Bool
  | .scalar _ _ => true
  | .constant _ _ => true
  | .nested _ elements => elements.length < 0x10000 && elementsFit elements
  | .array values => values.length < 0x10000 && valuesFit values

def elementsFit : List (UInt16 × Value) → Bool
  | [] => true
  | (_, value) :: rest => value.fits && elementsFit rest

def valuesFit : List Value → Bool
  | [] => true
  | value :: rest => value.fits && valuesFit rest

end

/-- An annotation as it is written. -/
structure Mark where
  typeName : UInt16
  elements : List (UInt16 × Value)

namespace Mark

def bytes (mark : Mark) : Bytes :=
  Bytes.spell 2 mark.typeName.toNat ++
    (Bytes.spell 2 mark.elements.length ++ elementsBytes mark.elements)

def fits (mark : Mark) : Bool := mark.elements.length < 0x10000 && elementsFit mark.elements

end Mark

section Denotation

variable (pool : List Entry)

/-- What the constant at an index says as a value of a kind. An integer has to be in the range of
the kind, and the code of a character must be no surrogate. -/
def Scalar.denotes? (index : UInt16) : Scalar → Option ElementValue
  | byte => do
    let code ← integer? pool index
    if -0x80 ≤ code ∧ code ≤ 0x7F then some (.byte code.toInt8) else none
  | char => do
    let code ← integer? pool index
    if 0 ≤ code ∧ code < 0xD800 ∨ 0xE000 ≤ code ∧ code ≤ 0xFFFF then
      some (.char (Char.ofNat code.toInt.toNat))
    else none
  | short => do
    let code ← integer? pool index
    if -0x8000 ≤ code ∧ code ≤ 0x7FFF then some (.short code.toInt16) else none
  | int => (integer? pool index).map .int
  | boolean => do
    let code ← integer? pool index
    if code = 0 then some (.boolean false)
    else if code = 1 then some (.boolean true)
    else none
  | long =>
    match denoted? pool index with
    | some (.long value) => some (.long value)
    | _ => none
  | float =>
    match denoted? pool index with
    | some (.float bits) => some (.float bits)
    | _ => none
  | double =>
    match denoted? pool index with
    | some (.double bits) => some (.double bits)
    | _ => none
  | string => (text? pool index).map .string
  | classLiteral => (text? pool index).map fun text => .classLiteral (ClassName.descriptorName text)

mutual

/-- What a value says. -/
def Value.denotes? : Value → Option ElementValue
  | .scalar kind index => kind.denotes? pool index
  | .constant typeName constantName => do
    let descriptor ← text? pool typeName
    let name ← text? pool constantName
    some (.constant (ClassName.descriptorName descriptor) name)
  | .nested typeName elements => do
    let descriptor ← text? pool typeName
    let elements ← elementsDenote? elements
    some (.nested (ClassName.descriptorName descriptor) elements)
  | .array values => do
    let values ← valuesDenote? values
    some (.array values)

def elementsDenote? : List (UInt16 × Value) → Option (List (String × ElementValue))
  | [] => some []
  | (name, value) :: rest => do
    let name ← text? pool name
    let value ← value.denotes?
    let rest ← elementsDenote? rest
    some ((name, value) :: rest)

def valuesDenote? : List Value → Option (List ElementValue)
  | [] => some []
  | value :: rest => do
    let value ← value.denotes?
    let rest ← valuesDenote? rest
    some (value :: rest)

end

/-- What an annotation says. -/
def Mark.denotes? (mark : Mark) : Option Annotation := do
  let descriptor ← text? pool mark.typeName
  let elements ← elementsDenote? pool mark.elements
  some ⟨ClassName.descriptorName descriptor, elements⟩

end Denotation

/-! ### Attributes -/

/-- An attribute of any kind. -/
structure Attribute where
  label : UInt16
  body : Bytes

namespace Attribute

def bytes (raw : Attribute) : Bytes :=
  Bytes.spell 2 raw.label.toNat ++ (Bytes.spell 4 raw.body.length ++ raw.body)

def fits (raw : Attribute) : Bool := raw.body.length < 0x100000000

end Attribute

/-- An attribute of a class or of a method: the kind that is read there, or any other. -/
inductive Part (α : Type) where
  | known (label : UInt16) (content : α)
  | other (raw : Attribute)

namespace Part

variable {α β : Type}

/-- A part as an attribute, for a way to write what is read. -/
def raw (write : α → Bytes) : Part α → Attribute
  | known label content => ⟨label, write content⟩
  | other raw => raw

/-- Whether a part and what is read in it fit. -/
def fits (write : α → Bytes) (contentFits : α → Bool) : Part α → Bool
  | known label content => (raw write (known label content)).fits && contentFits content
  | other raw => raw.fits

/-- What a part says, if the attributes that are read are those of the given name: one thing or
nothing. -/
def denotes? (pool : List Entry) (name : String) (read : α → Option β) :
    Part α → Option (List β)
  | known label content => if text? pool label = some name then (read content).map ([·]) else none
  | other raw =>
    match text? pool raw.label with
    | some label => if label = name then none else some []
    | none => none

end Part

/-! ### Fields, methods and classes -/

structure Field where
  accessFlags : UInt16
  name : UInt16
  descriptor : UInt16
  attributes : List Attribute

namespace Field

def bytes (field : Field) : Bytes :=
  Bytes.spell 2 field.accessFlags.toNat ++ (Bytes.spell 2 field.name.toNat ++
    (Bytes.spell 2 field.descriptor.toNat ++ counted Attribute.bytes field.attributes))

def fits (field : Field) : Bool :=
  field.attributes.length < 0x10000 && field.attributes.all Attribute.fits

end Field

structure Method where
  accessFlags : UInt16
  name : UInt16
  descriptor : UInt16
  attributes : List (Part Value)

namespace Method

def bytes (method : Method) : Bytes :=
  Bytes.spell 2 method.accessFlags.toNat ++ (Bytes.spell 2 method.name.toNat ++
    (Bytes.spell 2 method.descriptor.toNat ++
      counted (fun part => (part.raw Value.bytes).bytes) method.attributes))

def fits (method : Method) : Bool :=
  method.attributes.length < 0x10000 && method.attributes.all (·.fits Value.bytes Value.fits)

/-- The default values that a method declares, each with the name of the method. -/
def denotes? (pool : List Entry) (method : Method) : Option (List (String × ElementValue)) := do
  let name ← text? pool method.name
  let values ← method.attributes.mapM (·.denotes? pool defaultAttribute (Value.denotes? pool))
  some (values.flatten.map (name, ·))

end Method

end Layout

/-- A class file as it is laid out. -/
structure Layout where
  minorVersion : UInt16
  majorVersion : UInt16
  pool : List Layout.Entry
  accessFlags : UInt16
  name : UInt16
  /-- Zero for a class without a superclass. -/
  superName : UInt16
  interfaces : List UInt16
  fields : List Layout.Field
  methods : List Layout.Method
  attributes : List (Layout.Part (List Layout.Mark))

namespace Layout

/-- The bytes of a class file. -/
def bytes (layout : Layout) : Bytes :=
  Bytes.spell 4 magic.toNat ++ (Bytes.spell 2 layout.minorVersion.toNat ++
    (Bytes.spell 2 layout.majorVersion.toNat ++ (poolBytes layout.pool ++
    (Bytes.spell 2 layout.accessFlags.toNat ++ (Bytes.spell 2 layout.name.toNat ++
    (Bytes.spell 2 layout.superName.toNat ++
    (counted (fun index => Bytes.spell 2 index.toNat) layout.interfaces ++
    (counted Field.bytes layout.fields ++ (counted Method.bytes layout.methods ++
    counted (fun part => (part.raw (counted Mark.bytes)).bytes) layout.attributes)))))))))

/-- Whether every count and length of a class file can be written in its bytes. -/
def fits (layout : Layout) : Bool :=
  places layout.pool + 1 < 0x10000 && layout.pool.all Entry.fits &&
  layout.interfaces.length < 0x10000 &&
  (layout.fields.length < 0x10000 && layout.fields.all Field.fits) &&
  (layout.methods.length < 0x10000 && layout.methods.all Method.fits) &&
  (layout.attributes.length < 0x10000 && layout.attributes.all
    (·.fits (counted Mark.bytes) fun marks => marks.length < 0x10000 && marks.all Mark.fits))

/-- What a class file says, if every index that is read denotes a constant of the right kind and
every integer is in the range of its element. -/
structure Describes (layout : Layout) (file : ClassFile) : Prop where
  minorVersion : file.minorVersion = layout.minorVersion
  majorVersion : file.majorVersion = layout.majorVersion
  accessFlags : file.accessFlags = layout.accessFlags
  name : className? layout.pool layout.name = some file.name
  superName : if layout.superName = 0 then file.superName = none
    else ∃ name, className? layout.pool layout.superName = some name ∧ file.superName = some name
  interfaces : layout.interfaces.mapM (className? layout.pool) = some file.interfaces
  /-- Fields are not read, but the names of their attributes are. -/
  fields : ∀ field ∈ layout.fields, ∀ raw ∈ field.attributes,
    (text? layout.pool raw.label).isSome
  /-- The annotations of all attributes that hold some, in the order of the file. -/
  annotations : ∃ groups, layout.attributes.mapM
      (·.denotes? layout.pool annotationsAttribute (·.mapM (Mark.denotes? layout.pool))) =
      some groups ∧
    file.annotations = groups.flatten.flatten
  /-- Of several default values for one element, the last one. -/
  defaults : ∃ declared, layout.methods.mapM (Method.denotes? layout.pool) = some declared ∧
    ∀ element, file.defaults.find? element =
      (declared.flatten.reverse.find? (·.1 = element)).map (·.2)

end Layout

end ClassFile

end ExtensionCatalog
