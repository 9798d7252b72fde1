/-
**What can be wrong with a class file.**
-/

import ExtensionCatalog.FilePath
import ExtensionCatalog.Text.Quoted

namespace ExtensionCatalog

/-- Why bytes are not the class file that was looked for. -/
inductive ClassFileFault where
  | truncated
  | badMagic
  | malformedString (index : Nat)
  | unknownConstantTag (tag : UInt8)
  | poolOverrun
  | invalidIndex (index : UInt16)
  | notString (index : UInt16)
  | notClass (index : UInt16)
  | notInteger (index : UInt16)
  | notLong
  | notFloat
  | notDouble
  | unknownElementTag (tag : UInt8)
  | otherClass (path : FilePath) (declared : String)
deriving DecidableEq

namespace ClassFileFault

/-- The reason that a message gives. -/
def reason : ClassFileFault → String
  | truncated => "unexpected end of class file"
  | badMagic => "bad magic number"
  | malformedString index => s!"malformed string constant #{index}"
  | unknownConstantTag tag => s!"unknown constant pool tag {tag.toNat}"
  | poolOverrun => "eight-byte constant overruns the constant pool"
  | invalidIndex index => s!"invalid constant pool index {index.toNat}"
  | notString index => s!"constant #{index.toNat} is not a string"
  | notClass index => s!"constant #{index.toNat} is not a class"
  | notInteger index => s!"constant #{index.toNat} is not an integer"
  | notLong => "long element is not a long constant"
  | notFloat => "float element is not a float constant"
  | notDouble => "double element is not a double constant"
  | unknownElementTag tag => s!"unknown element value tag '{Char.ofNat tag.toNat}'"
  | otherClass path declared => s!"{Text.quoted path.text} declares class {declared}"

end ClassFileFault

end ExtensionCatalog
