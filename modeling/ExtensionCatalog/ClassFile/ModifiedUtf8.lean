/-
**The encoding of string constants in class files.**

NUL takes two bytes, and a character beyond the basic plane is a surrogate pair of three bytes for
each half. Plain UTF-8 without NUL is read as what it says.

* `encode`: the bytes of a text;
* `units?`: the code units that bytes spell one by one;
* `decode?`: the text of a string constant.
-/

import ExtensionCatalog.Text.Utf16
import ExtensionCatalog.Text.Utf8

namespace ExtensionCatalog.ModifiedUtf8

/-- The bytes of one code unit. -/
def encodeUnit (unit : UInt16) : Bytes :=
  let code := unit.toNat
  if code ≠ 0 ∧ code < 0x80 then [code.toUInt8]
  else if code < 0x800 then [(0xC0 + code / 64).toUInt8, (0x80 + code % 64).toUInt8]
  else [(0xE0 + code / 4096).toUInt8, (0x80 + code / 64 % 64).toUInt8, (0x80 + code % 64).toUInt8]

/-- The bytes of a text. -/
def encode (text : List Char) : Bytes := (Text.Utf16.encode text).flatMap encodeUnit

/-- The code units that bytes spell, if every unit is complete. The form of the bytes after the
first one of a unit is not looked at. -/
def units? : Bytes → Option (List UInt16)
  | [] => some []
  | first :: rest =>
    if first < 0x80 then (units? rest).map (first.toUInt16 :: ·)
    else if first &&& 0xE0 = 0xC0 then
      match rest with
      | second :: more =>
        (units? more).map (((first.toNat % 32) * 64 + second.toNat % 64).toUInt16 :: ·)
      | [] => none
    else if first &&& 0xF0 = 0xE0 then
      match rest with
      | second :: third :: more =>
        (units? more).map
          (((first.toNat % 16) * 4096 + second.toNat % 64 * 64 + third.toNat % 64).toUInt16 :: ·)
      | _ => none
    else none

/-- The text of a string constant. -/
def decode? (bytes : Bytes) : Option (List Char) :=
  match Text.Utf8.decode? bytes with
  | some text => if '\x00' ∈ text then units? bytes >>= Text.Utf16.decode? else some text
  | none => units? bytes >>= Text.Utf16.decode?

end ExtensionCatalog.ModifiedUtf8
