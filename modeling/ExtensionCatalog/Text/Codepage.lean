/-
**Code page 437.**

The bytes below 0x80 are ASCII; the others are the characters of `upperHalf`, in order.
-/

import ExtensionCatalog.Bytes

namespace ExtensionCatalog.Text.Codepage

/-- The characters of the bytes from 0x80 on. -/
def upperHalf : List Char :=
  ("ÇüéâäàåçêëèïîìÄÅÉæÆôöòûùÿÖÜ¢£¥₧ƒ" ++
    "áíóúñÑªº¿⌐¬½¼¡«»░▒▓│┤╡╢╖╕╣║╗╝╜╛┐" ++
    "└┴┬├─┼╞╟╚╔╩╦╠═╬╧╨╤╥╙╘╒╓╫╪┘┌█▄▌▐▀" ++
    "αßΓπΣσµτΦΘΩδ∞φε∩≡±≥≤⌠⌡÷≈°∙·√ⁿ²■\u00a0").toList

/-- The character of a byte. -/
def character (byte : UInt8) : Char :=
  if byte < 0x80 then Char.ofNat byte.toNat
  else upperHalf.getD (byte.toNat - 0x80) (Char.ofNat 0xFFFD)

/-- The text that bytes spell. -/
def decode (bytes : Bytes) : List Char := bytes.map character

end ExtensionCatalog.Text.Codepage
