/-
**Quoted text in messages.**

A text is shown between double quotes. The quote and the backslash are escaped, and so is every
character that a reader would not see, or would see as part of the character before it.

* `isShown`: whether a character stands for itself;
* `quoted`: a text between double quotes.
-/

import ExtensionCatalog.Text.Blank
import ExtensionCatalog.Text.GraphemeBase
import ExtensionCatalog.Text.Numeral

namespace ExtensionCatalog.Text

/-- The shortest lower-case hexadecimal numeral of a number below `16 ^ 6`. -/
def shortHex (number : Nat) : List Char :=
  match (Numeral.padded 16 6 number).dropWhile (· == '0') with
  | [] => ['0']
  | digits => digits.map Char.toLower

/-- Letters of a script that are placeholders and have no form of their own. -/
def isFiller (c : Char) : Bool :=
  c.toNat == 0x115F || c.toNat == 0x1160 || c.toNat == 0x3164 || c.toNat == 0xFFA0

/-- Whether a character is seen as itself: it is the space, or it begins a grapheme and is neither
other white space nor a filler. -/
def isShown (c : Char) : Bool :=
  c == ' ' || (isGraphemeBase c && !isBlank c && !isFiller c)

/-- One character as it stands between quotes. -/
def quoteChar (c : Char) : List Char :=
  match c with
  | '"' => ['\\', '"']
  | '\\' => ['\\', '\\']
  | '\x00' => ['\\', '0']
  | '\t' => ['\\', 't']
  | '\n' => ['\\', 'n']
  | '\r' => ['\\', 'r']
  | c =>
    if isShown c then [c] else ['\\', 'u', '\x7b'] ++ shortHex c.toNat ++ ['\x7d']

/-- A text between double quotes. -/
def quoted (text : String) : String :=
  String.ofList ('"' :: text.toList.flatMap quoteChar ++ ['"'])

end ExtensionCatalog.Text
