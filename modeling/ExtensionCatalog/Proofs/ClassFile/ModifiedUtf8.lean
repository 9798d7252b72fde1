/-
**Reading string constants back.**

Two decoders share the work: plain UTF-8 without NUL is read as what it says, and everything else
unit by unit. Where both give a text, they give the same one, so the shortcut is never seen.

* `twoByteLead_iff`, `threeByteLead_iff`: the lead bytes by their range;
* `units?_encodeUnit_append`: the bytes of a unit are read as that unit;
* `decode?_of_utf8`: the shortcut and the units agree;
* `decode?_of_complete`: complete units are read as what they spell;
* `decode?_encode`: **a string constant is read as the text that it was written for**.
-/

import ExtensionCatalog.ClassFile.ModifiedUtf8

namespace ExtensionCatalog.ModifiedUtf8

open Text Bytes

/-! ### Lead bytes -/

theorem twoByteLead_iff (byte : UInt8) :
    byte &&& 0xE0 = 0xC0 ↔ 0xC0 ≤ byte.toNat ∧ byte.toNat ≤ 0xDF := by
  have all : ∀ value : Fin 256, UInt8.ofFin value &&& 0xE0 = 0xC0 ↔
      0xC0 ≤ value.val ∧ value.val ≤ 0xDF := by decide +kernel
  exact all byte.toFin

theorem threeByteLead_iff (byte : UInt8) :
    byte &&& 0xF0 = 0xE0 ↔ 0xE0 ≤ byte.toNat ∧ byte.toNat ≤ 0xEF := by
  have all : ∀ value : Fin 256, UInt8.ofFin value &&& 0xF0 = 0xE0 ↔
      0xE0 ≤ value.val ∧ value.val ≤ 0xEF := by decide +kernel
  exact all byte.toFin

/-! ### Units -/

variable {first second third : UInt8} {rest : Bytes}

/-- A byte below 0x80 is a unit of its own. -/
theorem units?_one (lead : first.toNat < 0x80) :
    units? (first :: rest) = (units? rest).map (first.toNat.toUInt16 :: ·) := by
  have small : first < 0x80 := UInt8.lt_iff_toNat_lt.mpr lead
  have same : first.toUInt16 = first.toNat.toUInt16 := by
    rw [← UInt16.toNat_inj, Utf16.toNat_unit _ (by omega), UInt8.toNat_toUInt16]
  rw [units?.eq_def]
  simp only [if_pos small, same]

/-- Two bytes of the form `110xxxxx 10xxxxxx`. -/
theorem units?_two (low : 0xC0 ≤ first.toNat) (high : first.toNat ≤ 0xDF) :
    units? (first :: second :: rest) = (units? rest).map
      ((first.toNat % 32 * 64 + second.toNat % 64).toUInt16 :: ·) := by
  have large : ¬ first < 0x80 := by simp only [UInt8.lt_iff_toNat_lt, UInt8.reduceToNat]; omega
  rw [units?, if_neg large, if_pos ((twoByteLead_iff first).mpr ⟨low, high⟩)]

/-- Three bytes of the form `1110xxxx 10xxxxxx 10xxxxxx`. -/
theorem units?_three (low : 0xE0 ≤ first.toNat) (high : first.toNat ≤ 0xEF) :
    units? (first :: second :: third :: rest) = (units? rest).map
      ((first.toNat % 16 * 4096 + second.toNat % 64 * 64 + third.toNat % 64).toUInt16 :: ·) := by
  have large : ¬ first < 0x80 := by simp only [UInt8.lt_iff_toNat_lt, UInt8.reduceToNat]; omega
  have other : ¬ first &&& 0xE0 = 0xC0 := fun lead => by
    have := (twoByteLead_iff first).mp lead
    omega
  rw [units?, if_neg large, if_neg other, if_pos ((threeByteLead_iff first).mpr ⟨low, high⟩)]

/-- No unit begins with a byte from 0xF0 on, as four-byte characters of UTF-8 do. -/
theorem units?_four (low : 0xF0 ≤ first.toNat) : units? (first :: rest) = none := by
  have large : ¬ first < 0x80 := by simp only [UInt8.lt_iff_toNat_lt, UInt8.reduceToNat]; omega
  have notTwo : ¬ first &&& 0xE0 = 0xC0 := fun lead => by
    have := (twoByteLead_iff first).mp lead
    omega
  have notThree : ¬ first &&& 0xF0 = 0xE0 := fun lead => by
    have := (threeByteLead_iff first).mp lead
    omega
  rw [units?.eq_def]
  simp only [if_neg large, if_neg notTwo, if_neg notThree]

/-- The bytes of a unit in front of others are read as that unit. -/
theorem units?_encodeUnit_append (unit : UInt16) (rest : Bytes) :
    units? (encodeUnit unit ++ rest) = (units? rest).map (unit :: ·) := by
  have bounded : unit.toNat < 0x10000 := unit.toNat_lt
  have back : unit.toNat.toUInt16 = unit := UInt16.ofNat_toNat
  rw [encodeUnit]
  by_cases one : unit.toNat ≠ 0 ∧ unit.toNat < 0x80
  · have byte := toNat_byte unit.toNat (by omega)
    rw [if_pos one, List.singleton_append, units?_one (by omega), byte, back]
  rw [if_neg one]
  by_cases two : unit.toNat < 0x800
  · have lead := toNat_byte (0xC0 + unit.toNat / 64) (by omega)
    have tail := toNat_byte (0x80 + unit.toNat % 64) (by omega)
    have whole : (0xC0 + unit.toNat / 64) % 32 * 64 + (0x80 + unit.toNat % 64) % 64 =
      unit.toNat := by omega
    rw [if_pos two, List.cons_append, List.singleton_append, units?_two (by omega) (by omega),
      lead, tail, whole, back]
  · have lead := toNat_byte (0xE0 + unit.toNat / 4096) (by omega)
    have middle := toNat_byte (0x80 + unit.toNat / 64 % 64) (by omega)
    have tail := toNat_byte (0x80 + unit.toNat % 64) (by omega)
    have whole : (0xE0 + unit.toNat / 4096) % 16 * 4096 + (0x80 + unit.toNat / 64 % 64) % 64 * 64 +
      (0x80 + unit.toNat % 64) % 64 = unit.toNat := by omega
    rw [if_neg two, List.cons_append, List.cons_append, List.singleton_append,
      units?_three (by omega) (by omega), lead, middle, tail, whole, back]

/-- The bytes of units are read as these units. -/
theorem units?_flatMap_encodeUnit (units : List UInt16) :
    units? (units.flatMap encodeUnit) = some units := by
  induction units with
  | nil => rfl
  | cons unit rest hypothesis =>
    rw [List.flatMap_cons, units?_encodeUnit_append, hypothesis, Option.map_some]

/-! ### The shortcut -/

/-- A code below the surrogates or above them is read as its character. -/
theorem decode?_unit_cons {code : Nat} (small : code < 0x10000)
    (plain : code < 0xD800 ∨ 0xDFFF < code) (rest : List UInt16) :
    Utf16.decode? (code.toUInt16 :: rest) =
      (Utf16.decode? rest).map (Char.ofNat code :: ·) := by
  have same : (Char.ofNat code).toNat = code := Utf16.toNat_ofNat (by omega) plain
  have units : Utf16.encodeChar (Char.ofNat code) = [code.toUInt16] := by
    rw [Utf16.encodeChar, same, if_pos small]
  rw [← List.singleton_append, ← units, Utf16.decode?_encodeChar_append]

/-- The characters of three bytes in UTF-8 are no surrogates. -/
theorem plain_of_secondOfThree (low : 0xE0 ≤ first.toNat) (high : first.toNat ≤ 0xEF)
    (fits : Utf8.secondOfThree first second = true) (third : UInt8) :
    first.toNat % 16 * 4096 + second.toNat % 64 * 64 + third.toNat % 64 < 0xD800 ∨
      0xDFFF < first.toNat % 16 * 4096 + second.toNat % 64 * 64 + third.toNat % 64 := by
  by_cases last : first = 0xED
  · subst last
    rw [Utf8.secondOfThree, if_neg (by decide), if_pos rfl] at fits
    simp only [Bool.and_eq_true, decide_eq_true_eq, UInt8.le_iff_toNat_le,
      UInt8.reduceToNat] at fits ⊢
    omega
  · have other : first.toNat ≠ 0xED := fun same => last (UInt8.toNat_inj.mp same)
    omega

/-- One character in front of others on which the characters and the units agree already. -/
theorem decode?_of_piece {code : Nat} {pieces : List (Option Char)} {text : List Char}
    {more : Option (List UInt16)} {units : List UInt16} (small : code < 0x10000)
    (lone : code < 0xD800 ∨ 0xDFFF < code)
    (plain : (some (Char.ofNat code) :: pieces).mapM id = some text)
    (complete : more.map (code.toUInt16 :: ·) = some units)
    (agree : ∀ {text units}, pieces.mapM id = some text → more = some units →
      Utf16.decode? units = some text) : Utf16.decode? units = some text := by
  simp only [List.mapM_cons, id_eq, Option.bind_eq_bind, Option.bind_some, Option.pure_def,
    Option.bind_eq_some_iff, Option.some.injEq] at plain
  obtain ⟨tail, spelled, rfl⟩ := plain
  obtain ⟨rest, found, rfl⟩ := Option.map_eq_some_iff.mp complete
  rw [decode?_unit_cons small lone, agree spelled found, Option.map_some]

/-- Where a byte string is UTF-8 and its units are complete, they spell the same text: UTF-8 has
no surrogates of three bytes, and its four-byte characters are no units. -/
theorem decode?_of_utf8 {bytes : Bytes} {text : List Char} {units : List UInt16}
    (plain : Utf8.decode? bytes = some text) (complete : units? bytes = some units) :
    Utf16.decode? units = some text := by
  unfold Utf8.decode? at plain
  fun_induction Utf8.pieces bytes generalizing text units with
  | case1 =>
    cases plain
    cases complete
    rfl
  | case2 lead rest ascii hypothesis =>
    simp only [UInt8.lt_iff_toNat_lt, UInt8.reduceToNat] at ascii
    rw [units?_one ascii] at complete
    exact decode?_of_piece (by omega) (by omega) plain complete hypothesis
  | case3 lead _ two second more _ hypothesis =>
    simp only [Bool.and_eq_true, decide_eq_true_eq, UInt8.le_iff_toNat_le,
      UInt8.reduceToNat] at two
    rw [units?_two (by omega) (by omega)] at complete
    rw [Utf8.assemble, List.foldl_cons, List.foldl_nil] at plain
    exact decode?_of_piece (by omega) (by omega) plain complete hypothesis
  | case6 lead _ _ three second fits third more _ hypothesis =>
    simp only [Bool.and_eq_true, decide_eq_true_eq, UInt8.le_iff_toNat_le,
      UInt8.reduceToNat] at three
    obtain ⟨low, high⟩ := three
    rw [units?_three low high] at complete
    have code : (lead.toNat % 16 * 64 + second.toNat % 64) * 64 + third.toNat % 64 =
      lead.toNat % 16 * 4096 + second.toNat % 64 * 64 + third.toNat % 64 := by omega
    rw [Utf8.assemble, List.foldl_cons, List.foldl_cons, List.foldl_nil, code] at plain
    exact decode?_of_piece (by omega) (plain_of_secondOfThree low high fits third) plain complete
      hypothesis
  | case11 lead _ _ _ four =>
    simp only [Bool.and_eq_true, decide_eq_true_eq, UInt8.le_iff_toNat_le,
      UInt8.reduceToNat] at four
    rw [units?_four four.1] at complete
    cases complete
  -- Everywhere else the bytes begin with a gap.
  | _ => simp at plain

/-- The shortcut is never seen: a byte string whose units are complete is read as what these
spell, if anything. -/
theorem decode?_of_complete {bytes : Bytes} {units : List UInt16}
    (complete : units? bytes = some units) : decode? bytes = Utf16.decode? units := by
  have slow : units? bytes >>= Utf16.decode? = Utf16.decode? units := by
    rw [complete, Option.bind_eq_bind, Option.bind_some]
  rw [decode?]
  split
  case h_1 plain found =>
    split
    · exact slow
    · rw [decode?_of_utf8 found complete]
  case h_2 => exact slow

/-- Where the units of a byte string spell a text, that is what is read. -/
theorem decode?_of_units {bytes : Bytes} {text : List Char}
    (spelled : units? bytes >>= Utf16.decode? = some text) : decode? bytes = some text := by
  obtain ⟨units, complete, read⟩ := Option.bind_eq_some_iff.mp spelled
  rw [decode?_of_complete complete, read]

/-- Bytes that were written unit by unit are read as what the units spell, if anything. -/
theorem decode?_flatMap_encodeUnit (units : List UInt16) :
    decode? (units.flatMap encodeUnit) = Utf16.decode? units :=
  decode?_of_complete (units?_flatMap_encodeUnit units)

/-- **A string constant is read as the text that it was written for**, whatever characters are in
it. -/
theorem decode?_encode (text : List Char) : decode? (encode text) = some text := by
  rw [encode, decode?_flatMap_encodeUnit, Utf16.decode?_encode]

end ExtensionCatalog.ModifiedUtf8
