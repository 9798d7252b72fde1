/-
**The two ways to read a string constant agree.**

A string constant that is plain UTF-8 without NUL is read as what it says, and any other one unit by
unit. Each way undoes its own encoding, and which of them is taken cannot be told from what is read.

* `encodeCharacter`, `encode_eq_flatMap`: the bytes of a text, character by character;
* `decode?_utf8`: plain UTF-8 without NUL;
* `decode?_agrees`: **both encodings are undone, and the shortcut is never seen**.
-/

import ExtensionCatalog.Proofs.ClassFile.ModifiedUtf8
import ExtensionCatalog.Proofs.Text.Utf8

namespace ExtensionCatalog.ModifiedUtf8

open Text

/-! ### Encoding by characters -/

/-- The bytes of a code unit that takes three. -/
def threeBytes (code : Nat) : Bytes :=
  [(0xE0 + code / 4096).toUInt8, (0x80 + code / 64 % 64).toUInt8, (0x80 + code % 64).toUInt8]

/-- The bytes of a character in a class file: two for NUL, those of UTF-8 in the basic plane, and
three for each half of a surrogate pair beyond it. -/
def encodeCharacter (c : Char) : Bytes :=
  if c = '\x00' then [0xC0, 0x80]
  else if c.toNat < 0x10000 then String.utf8EncodeChar c
  else
    threeBytes (0xD800 + (c.toNat - 0x10000) / 0x400) ++
      threeBytes (0xDC00 + (c.toNat - 0x10000) % 0x400)

/-- A unit from 0x800 on takes three bytes. -/
theorem encodeUnit_of_large {code : Nat} (large : 0x800 ≤ code) (small : code < 0x10000) :
    encodeUnit code.toUInt16 = threeBytes code := by
  rw [encodeUnit, Utf16.toNat_unit code small, if_neg (by omega), if_neg (by omega)]
  rfl

/-- In the basic plane, NUL apart, the bytes of a unit are those of UTF-8. -/
theorem encodeUnit_of_basic {c : Char} (notNul : c ≠ '\x00') (basic : c.toNat < 0x10000) :
    encodeUnit c.toNat.toUInt16 = String.utf8EncodeChar c := by
  have positive : c.toNat ≠ 0 := fun zero => notNul (Char.toNat_inj.mp zero)
  have same : c.val.toNat = c.toNat := rfl
  rw [encodeUnit, Utf16.toNat_unit _ basic]
  unfold String.utf8EncodeChar
  dsimp only
  rw [same]
  by_cases one : c.toNat < 0x80
  · rw [if_pos ⟨positive, one⟩, if_pos (show c.toNat ≤ 0x7F by omega)]
  rw [if_neg (fun both => one both.2), if_neg (show ¬ c.toNat ≤ 0x7F by omega)]
  by_cases two : c.toNat < 0x800
  · have lead : c.toNat / 64 % 32 + 192 = 0xC0 + c.toNat / 64 := by omega
    have tail : c.toNat % 64 + 128 = 0x80 + c.toNat % 64 := by omega
    rw [if_pos two, if_pos (show c.toNat ≤ 0x7FF by omega), lead, tail]
  · have lead : c.toNat / 4096 % 16 + 224 = 0xE0 + c.toNat / 4096 := by omega
    have middle : c.toNat / 64 % 64 + 128 = 0x80 + c.toNat / 64 % 64 := by omega
    have tail : c.toNat % 64 + 128 = 0x80 + c.toNat % 64 := by omega
    rw [if_neg two, if_neg (show ¬ c.toNat ≤ 0x7FF by omega),
      if_pos (show c.toNat ≤ 0xFFFF by omega), lead, middle, tail]

/-- The bytes of the units of a character are its own. -/
theorem flatMap_encodeUnit (c : Char) :
    (Utf16.encodeChar c).flatMap encodeUnit = encodeCharacter c := by
  obtain ⟨bounded, -⟩ := Utf16.toNat_range c
  rw [encodeCharacter]
  split
  next nul =>
    subst nul
    rfl
  next notNul =>
    rw [Utf16.encodeChar]
    split
    next basic =>
      rw [List.flatMap_cons, List.flatMap_nil, List.append_nil, encodeUnit_of_basic notNul basic]
    next beyond =>
      rw [List.flatMap_cons, List.flatMap_cons, List.flatMap_nil, List.append_nil,
        encodeUnit_of_large (by omega) (by omega), encodeUnit_of_large (by omega) (by omega)]

/-- A text is encoded character by character. -/
theorem encode_eq_flatMap (text : List Char) : encode text = text.flatMap encodeCharacter := by
  rw [encode, Utf16.encode, List.flatMap_assoc]
  simp only [flatMap_encodeUnit]

/-! ### The shortcut -/

/-- Plain UTF-8 without NUL is read as what it says. -/
theorem decode?_utf8 {text : List Char} (noNul : '\x00' ∉ text) :
    decode? (Utf8.encode text) = some text := by
  rw [decode?, Utf8.decode?_encode]
  exact if_neg noNul

/-- **Both encodings are undone, and the shortcut is never seen.** The bytes of a text in a class
file are read as that text, and so is plain UTF-8 without NUL; and where the units of a byte string
spell a text one by one, that is what is read, whether or not the bytes are plain UTF-8. -/
theorem decode?_agrees :
    (∀ text : List Char, decode? (text.flatMap encodeCharacter) = some text) ∧
    (∀ text : List Char, '\x00' ∉ text → decode? (Utf8.encode text) = some text) ∧
    ∀ bytes text, units? bytes >>= Utf16.decode? = some text → decode? bytes = some text := by
  refine ⟨fun text => ?_, fun _ => decode?_utf8, fun _ _ => decode?_of_units⟩
  rw [← encode_eq_flatMap]
  exact decode?_encode text

/-- A text with characters of every length is read from both of its encodings; with NUL it has one
of them only. -/
theorem decode?_agrees_mixed :
    decode? ("aé中😀\x00".toList.flatMap encodeCharacter) = some "aé中😀\x00".toList ∧
    ('\x00' ∉ "aé中😀".toList ∧
      decode? (Utf8.encode "aé中😀".toList) = some "aé中😀".toList) ∧
    units? [0xC3, 0xA9, 0xC0, 0x80] >>= Utf16.decode? = some "é\x00".toList ∧
      decode? [0xC3, 0xA9, 0xC0, 0x80] = some "é\x00".toList := by
  obtain ⟨characters, plain, slow⟩ := decode?_agrees
  have noNul : '\x00' ∉ "aé中😀".toList := by decide
  have spelled : units? [0xC3, 0xA9, 0xC0, 0x80] >>= Utf16.decode? = some "é\x00".toList := by
    decide
  exact ⟨characters _, ⟨noNul, plain _ noNul⟩, spelled, slow _ _ spelled⟩

end ExtensionCatalog.ModifiedUtf8
