/-
**UTF-8: decoding undoes encoding.**

* `pieces_one`, `pieces_two`, `pieces_three`, `pieces_four`: the bytes of one character in front of
  others, by the number of bytes;
* `pieces_encodeChar_append`: a character in front of others is one piece;
* `decode?_encode`: **the bytes of a text are decoded as that text**.
-/

import ExtensionCatalog.Text.Utf16
import ExtensionCatalog.Text.Utf8

namespace ExtensionCatalog.Text.Utf8

open Bytes

variable {first second third fourth : UInt8} {rest : Bytes}

theorem isContinuation_iff {byte : UInt8} :
    isContinuation byte ↔ 0x80 ≤ byte.toNat ∧ byte.toNat ≤ 0xBF := range_iff

theorem pieces_one (lead : first.toNat < 0x80) :
    pieces (first :: rest) = some (Char.ofNat first.toNat) :: pieces rest := by
  have small : first < 0x80 := UInt8.lt_iff_toNat_lt.mpr lead
  rw [pieces.eq_def]
  simp only [if_pos small]

theorem pieces_two (low : 0xC2 ≤ first.toNat) (high : first.toNat ≤ 0xDF)
    (follows : isContinuation second) :
    pieces (first :: second :: rest) =
      some (Char.ofNat (first.toNat % 32 * 64 + second.toNat % 64)) :: pieces rest := by
  have large : ¬ first < 0x80 := by simp only [UInt8.lt_iff_toNat_lt, UInt8.reduceToNat]; omega
  have two : (0xC2 ≤ first && first ≤ 0xDF) = true := range_iff.mpr ⟨low, high⟩
  rw [pieces.eq_def]
  simp only [if_neg large, if_pos two, if_pos follows]
  rfl

theorem pieces_three (low : 0xE0 ≤ first.toNat) (high : first.toNat ≤ 0xEF)
    (fits : secondOfThree first second) (follows : isContinuation third) :
    pieces (first :: second :: third :: rest) =
      some (Char.ofNat ((first.toNat % 16 * 64 + second.toNat % 64) * 64 + third.toNat % 64)) ::
        pieces rest := by
  have large : ¬ first < 0x80 := by simp only [UInt8.lt_iff_toNat_lt, UInt8.reduceToNat]; omega
  have notTwo : ¬ (0xC2 ≤ first && first ≤ 0xDF) = true := by
    simp only [range_iff, UInt8.reduceToNat]
    omega
  have three : (0xE0 ≤ first && first ≤ 0xEF) = true := range_iff.mpr ⟨low, high⟩
  rw [pieces.eq_def]
  simp only [if_neg large, if_neg notTwo, if_pos three, if_pos fits, if_pos follows]
  rfl

theorem pieces_four (low : 0xF0 ≤ first.toNat) (high : first.toNat ≤ 0xF4)
    (fits : secondOfFour first second) (follows : isContinuation third)
    (last : isContinuation fourth) :
    pieces (first :: second :: third :: fourth :: rest) =
      some (Char.ofNat (((first.toNat % 8 * 64 + second.toNat % 64) * 64 + third.toNat % 64) * 64 +
        fourth.toNat % 64)) :: pieces rest := by
  have large : ¬ first < 0x80 := by simp only [UInt8.lt_iff_toNat_lt, UInt8.reduceToNat]; omega
  have notTwo : ¬ (0xC2 ≤ first && first ≤ 0xDF) = true := by
    simp only [range_iff, UInt8.reduceToNat]
    omega
  have notThree : ¬ (0xE0 ≤ first && first ≤ 0xEF) = true := by
    simp only [range_iff, UInt8.reduceToNat]
    omega
  have four : (0xF0 ≤ first && first ≤ 0xF4) = true := range_iff.mpr ⟨low, high⟩
  rw [pieces, if_neg large, if_neg notTwo, if_neg notThree, if_pos four, if_pos fits,
    if_pos follows, if_pos last]
  rfl

/-- The second byte of three: not after E0 what two bytes could say, and not after ED a
surrogate. -/
theorem secondOfThree_of {lead byte : UInt8} (tail : isContinuation byte)
    (long : lead.toNat = 0xE0 → 0xA0 ≤ byte.toNat) (plain : lead.toNat = 0xED → byte.toNat ≤ 0x9F) :
    secondOfThree lead byte := by
  have range := isContinuation_iff.mp tail
  unfold secondOfThree
  split
  · next least =>
    subst least
    exact range_iff.mpr ⟨long rfl, range.2⟩
  split
  · next surrogates =>
    subst surrogates
    exact range_iff.mpr ⟨range.1, plain rfl⟩
  · exact tail

/-- The second byte of four: not after F0 what three bytes could say, and not after F4 anything
beyond the last plane. -/
theorem secondOfFour_of {lead byte : UInt8} (tail : isContinuation byte)
    (long : lead.toNat = 0xF0 → 0x90 ≤ byte.toNat)
    (within : lead.toNat = 0xF4 → byte.toNat ≤ 0x8F) :
    secondOfFour lead byte := by
  have range := isContinuation_iff.mp tail
  unfold secondOfFour
  split
  · next least =>
    subst least
    exact range_iff.mpr ⟨long rfl, range.2⟩
  split
  · next last =>
    subst last
    exact range_iff.mpr ⟨range.1, within rfl⟩
  · exact tail

/-- The bytes of a character in front of others are decoded as that character. -/
theorem pieces_encodeChar_append (c : Char) (rest : Bytes) :
    pieces (String.utf8EncodeChar c ++ rest) = some c :: pieces rest := by
  obtain ⟨bounded, plain⟩ := Utf16.toNat_range c
  have same : c.val.toNat = c.toNat := rfl
  have byte {number : Nat} (small : number < 0x100) : (UInt8.ofNat number).toNat = number :=
    toNat_byte number small
  unfold String.utf8EncodeChar
  dsimp only
  rw [same]
  split
  next one =>
    have lead := byte (show c.toNat < 0x100 by omega)
    rw [List.singleton_append, pieces_one (by omega), lead, Char.ofNat_toNat]
  split
  next two =>
    have lead := byte (show c.toNat / 64 % 32 + 192 < 0x100 by omega)
    have tail := byte (show c.toNat % 64 + 128 < 0x100 by omega)
    have code : (c.toNat / 64 % 32 + 192) % 32 * 64 + (c.toNat % 64 + 128) % 64 = c.toNat := by
      omega
    rw [List.cons_append, List.singleton_append, pieces_two (by omega) (by omega)
      (isContinuation_iff.mpr (by omega)), lead, tail, code, Char.ofNat_toNat]
  split
  next three =>
    have lead := byte (show c.toNat / 4096 % 16 + 224 < 0x100 by omega)
    have middle := byte (show c.toNat / 64 % 64 + 128 < 0x100 by omega)
    have tail := byte (show c.toNat % 64 + 128 < 0x100 by omega)
    have code : ((c.toNat / 4096 % 16 + 224) % 16 * 64 + (c.toNat / 64 % 64 + 128) % 64) * 64 +
      (c.toNat % 64 + 128) % 64 = c.toNat := by omega
    rw [List.cons_append, List.cons_append, List.singleton_append,
      pieces_three (by omega) (by omega) (secondOfThree_of (isContinuation_iff.mpr (by omega))
        (by omega) (by omega)) (isContinuation_iff.mpr (by omega)), lead, middle, tail, code,
      Char.ofNat_toNat]
  next four =>
    have lead := byte (show c.toNat / 262144 % 8 + 240 < 0x100 by omega)
    have upper := byte (show c.toNat / 4096 % 64 + 128 < 0x100 by omega)
    have lower := byte (show c.toNat / 64 % 64 + 128 < 0x100 by omega)
    have tail := byte (show c.toNat % 64 + 128 < 0x100 by omega)
    have code : (((c.toNat / 262144 % 8 + 240) % 8 * 64 + (c.toNat / 4096 % 64 + 128) % 64) * 64 +
      (c.toNat / 64 % 64 + 128) % 64) * 64 + (c.toNat % 64 + 128) % 64 = c.toNat := by omega
    rw [List.cons_append, List.cons_append, List.cons_append, List.singleton_append,
      pieces_four (by omega) (by omega) (secondOfFour_of (isContinuation_iff.mpr (by omega))
        (by omega) (by omega)) (isContinuation_iff.mpr (by omega))
        (isContinuation_iff.mpr (by omega)), lead, upper, lower, tail, code, Char.ofNat_toNat]

/-- **The bytes of a text are decoded as that text.** -/
theorem decode?_encode (text : List Char) : decode? (encode text) = some text := by
  induction text with
  | nil => rfl
  | cons c others hypothesis =>
    rw [decode?] at hypothesis
    rw [decode?, encode, List.flatMap_cons, pieces_encodeChar_append, ← encode, List.mapM_cons,
      hypothesis]
    rfl

end ExtensionCatalog.Text.Utf8
