/-
**What a class file says.**

The names of a class and of its direct supertypes, its runtime-visible annotations and, for an
annotation type, the default values of its elements. Floating-point values are kept as their bits.

* `Annotation.find?`, `ClassFile.annotation?`: looking up elements and annotations, the first one
  of a name;
* `binaryName`, `descriptorName`, `resourceName`: the forms of a class name.
-/

import ExtensionCatalog.Sorted.Map
import ExtensionCatalog.Text.Blank

namespace ExtensionCatalog

/-- A value of an annotation element. -/
inductive ElementValue where
  | byte (value : Int8)
  | char (value : Char)
  | short (value : Int16)
  | int (value : Int32)
  | long (value : Int64)
  | float (bits : UInt32)
  | double (bits : UInt64)
  | boolean (value : Bool)
  | string (value : String)
  /-- A constant of an enum type. -/
  | constant (typeName constantName : String)
  /-- A class literal; primitive types and arrays by their descriptor. -/
  | classLiteral (name : String)
  | nested (typeName : String) (elements : List (String × ElementValue))
  | array (values : List ElementValue)
deriving Inhabited

/-- An annotation as it is written; elements that are left out are not here. -/
structure Annotation where
  typeName : String
  elements : List (String × ElementValue)
deriving Inhabited

/-- The value that an annotation gives to an element. -/
def Annotation.find? (mark : Annotation) (element : String) : Option ElementValue :=
  (mark.elements.find? (·.1 == element)).map (·.2)

namespace ElementValue

/-- The annotation that a value is. -/
def nested? : ElementValue → Option Annotation
  | nested typeName elements => some ⟨typeName, elements⟩
  | _ => none

/-- The name of the kind of a value in messages. -/
def kind : ElementValue → String
  | byte _ => "byte"
  | char _ => "char"
  | short _ => "short"
  | int _ => "int"
  | long _ => "long"
  | float _ => "float"
  | double _ => "double"
  | boolean _ => "boolean"
  | string _ => "string"
  | constant _ _ => "enum"
  | classLiteral _ => "class"
  | nested _ _ => "annotation"
  | array _ => "array"

end ElementValue

/-- What a class file says of its class. -/
structure ClassFile where
  minorVersion : UInt16
  majorVersion : UInt16
  accessFlags : UInt16
  name : String
  superName : Option String
  /-- The interfaces that a class implements, or that an interface extends, directly. -/
  interfaces : List String
  annotations : List Annotation
  /-- The default values of the elements of an annotation type. -/
  defaults : SortedMap String ElementValue
deriving Inhabited

namespace ClassFile

/-- The access flag of annotation types. -/
def annotationFlag : UInt16 := 0x2000

def isAnnotation (file : ClassFile) : Bool := file.accessFlags &&& annotationFlag != 0

/-- The first annotation of a type on the class. -/
def annotation? (file : ClassFile) (typeName : String) : Option Annotation :=
  file.annotations.find? (·.typeName == typeName)

end ClassFile

namespace ClassName

/-- A text with every `old` replaced by `new`. -/
def exchange (old new : Char) (text : String) : String :=
  String.ofList (text.toList.map fun c => if c = old then new else c)

theorem not_mem_exchange {old new : Char} (different : new ≠ old) (text : String) :
    old ∉ (exchange old new text).toList := by
  rw [exchange, String.toList_ofList, List.mem_map]
  rintro ⟨c, -, made⟩
  split at made
  · exact different made
  · next apart => exact apart made

/-- The name `a.b.C` of the internal name `a/b/C`. -/
def binaryName (internal : String) : String := exchange '/' '.' internal

/-- What stands between `L` and `;` in a descriptor of a class. -/
def internalName? (descriptor : List Char) : Option (List Char) :=
  match descriptor with
  | 'L' :: rest => if rest.getLast? = some ';' then some rest.dropLast else none
  | _ => none

/-- The name `a.b.C` of the descriptor `La/b/C;`; other descriptors stand for themselves. -/
def descriptorName (descriptor : String) : String :=
  match internalName? descriptor.toList with
  | some internal => binaryName (String.ofList internal)
  | none => descriptor

/-- The path of the class file of the class `a.b.C`. -/
def resourceName (name : String) : String := exchange '.' '/' name ++ ".class"

end ClassName

end ExtensionCatalog
