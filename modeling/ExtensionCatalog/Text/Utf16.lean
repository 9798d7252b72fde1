/-
**UTF-16 code units.**

* `decode?_encodeChar_append`: the units of a character are read as that character;
* `decode?_encode`: the units of a text spell that text;
* `encode_of_decode?`: no other units do;
* `decode?_eq_none_iff`: units that are not well formed spell nothing.
-/

namespace ExtensionCatalog.Text.Utf16

/-- The code units of one character: one, or a high and a low surrogate. -/
def encodeChar (c : Char) : List UInt16 :=
  if c.toNat < 0x10000 then [c.toNat.toUInt16]
  else
    [(0xD800 + (c.toNat - 0x10000) / 0x400).toUInt16,
      (0xDC00 + (c.toNat - 0x10000) % 0x400).toUInt16]

/-- The code units of a text. -/
def encode (text : List Char) : List UInt16 := text.flatMap encodeChar

def isHigh (unit : UInt16) : Bool := 0xD800 ≤ unit && unit ≤ 0xDBFF

def isLow (unit : UInt16) : Bool := 0xDC00 ≤ unit && unit ≤ 0xDFFF

/-- The character of a surrogate pair. -/
def pair (high low : UInt16) : Char :=
  Char.ofNat (0x10000 + (high.toNat - 0xD800) * 0x400 + (low.toNat - 0xDC00))

/-- The text spelled by code units, if no surrogate is unpaired. -/
def decode? : List UInt16 → Option (List Char)
  | [] => some []
  | unit :: rest =>
    if isHigh unit then
      match rest with
      | low :: more => if isLow low then (decode? more).map (pair unit low :: ·) else none
      | [] => none
    else if isLow unit then none
    else (decode? rest).map (Char.ofNat unit.toNat :: ·)

theorem toNat_unit (number : Nat) (small : number < 0x10000) :
    number.toUInt16.toNat = number := by
  simpa [Nat.toUInt16] using Nat.mod_eq_of_lt small

/-- The code point of a character lies in the planes and is no surrogate. -/
theorem toNat_range (c : Char) :
    c.toNat < 0x110000 ∧ (c.toNat < 0xD800 ∨ 0xDFFF < c.toNat) := by
  have valid := c.valid
  simp only [UInt32.isValidChar, Nat.isValidChar] at valid
  have same : c.toNat = c.val.toNat := rfl
  omega

/-- Every number in the planes that is no surrogate is the code point of its character. -/
theorem toNat_ofNat {code : Nat} (bounded : code < 0x110000)
    (plain : code < 0xD800 ∨ 0xDFFF < code) : (Char.ofNat code).toNat = code := by
  have valid : code.isValidChar := by simp only [Nat.isValidChar]; omega
  rw [Char.ofNat, dif_pos valid]
  rfl

/-- The units of a character in front of others are read as that character. -/
theorem decode?_encodeChar_append (c : Char) (rest : List UInt16) :
    decode? (encodeChar c ++ rest) = (decode? rest).map (c :: ·) := by
  obtain ⟨bounded, plain⟩ := toNat_range c
  by_cases small : c.toNat < 0x10000
  · have value := toNat_unit _ small
    have notHigh : isHigh c.toNat.toUInt16 = false := by
      simp only [isHigh, UInt16.le_iff_toNat_le, value, Bool.and_eq_false_iff,
        decide_eq_false_iff_not]
      simp only [UInt16.reduceToNat]
      omega
    have notLow : isLow c.toNat.toUInt16 = false := by
      simp only [isLow, UInt16.le_iff_toNat_le, value, Bool.and_eq_false_iff,
        decide_eq_false_iff_not]
      simp only [UInt16.reduceToNat]
      omega
    cases rest <;>
      simp only [encodeChar, small, if_true, List.cons_append, List.nil_append, decode?, notHigh,
        notLow, value, Char.ofNat_toNat, Bool.false_eq_true, if_false]
  · have highValue := toNat_unit (0xD800 + (c.toNat - 0x10000) / 0x400) (by omega)
    have lowValue := toNat_unit (0xDC00 + (c.toNat - 0x10000) % 0x400) (by omega)
    have high : isHigh (0xD800 + (c.toNat - 0x10000) / 0x400).toUInt16 = true := by
      simp only [isHigh, UInt16.le_iff_toNat_le, highValue, Bool.and_eq_true, decide_eq_true_eq]
      simp only [UInt16.reduceToNat]
      omega
    have low : isLow (0xDC00 + (c.toNat - 0x10000) % 0x400).toUInt16 = true := by
      simp only [isLow, UInt16.le_iff_toNat_le, lowValue, Bool.and_eq_true, decide_eq_true_eq]
      simp only [UInt16.reduceToNat]
      omega
    have whole : pair (0xD800 + (c.toNat - 0x10000) / 0x400).toUInt16
        (0xDC00 + (c.toNat - 0x10000) % 0x400).toUInt16 = c := by
      rw [pair, highValue, lowValue]
      have sum : 0x10000 + (0xD800 + (c.toNat - 0x10000) / 0x400 - 0xD800) * 0x400 +
          (0xDC00 + (c.toNat - 0x10000) % 0x400 - 0xDC00) = c.toNat := by omega
      rw [sum, Char.ofNat_toNat]
    simp only [encodeChar, small, if_false, List.cons_append, List.nil_append, decode?, high, low,
      if_true, whole]

/-- The units of a text spell that text. -/
theorem decode?_encode (text : List Char) : decode? (encode text) = some text := by
  induction text with
  | nil => rfl
  | cons c rest hypothesis =>
    rw [encode, List.flatMap_cons, decode?_encodeChar_append, ← encode, hypothesis]
    rfl

/-- A unit that is no surrogate is the only one of its character. -/
theorem encodeChar_ofNat {unit : UInt16} (notHigh : ¬ isHigh unit) (notLow : ¬ isLow unit) :
    encodeChar (Char.ofNat unit.toNat) = [unit] := by
  simp only [isHigh, isLow, Bool.and_eq_true, decide_eq_true_eq, UInt16.le_iff_toNat_le,
    UInt16.reduceToNat] at notHigh notLow
  have bounded : unit.toNat < 0x10000 := unit.toNat_lt
  have back : unit.toNat.toUInt16 = unit := UInt16.ofNat_toNat
  rw [encodeChar, toNat_ofNat (by omega) (by omega), if_pos bounded, back]

/-- The character of two surrogates has these as its units. -/
theorem encodeChar_pair {high low : UInt16} (isHigh : isHigh high) (isLow : isLow low) :
    encodeChar (pair high low) = [high, low] := by
  simp only [Utf16.isHigh, Utf16.isLow, Bool.and_eq_true, decide_eq_true_eq,
    UInt16.le_iff_toNat_le, UInt16.reduceToNat] at isHigh isLow
  have first : 0xD800 + (0x10000 + (high.toNat - 0xD800) * 0x400 + (low.toNat - 0xDC00) -
      0x10000) / 0x400 = high.toNat := by omega
  have second : 0xDC00 + (0x10000 + (high.toNat - 0xD800) * 0x400 + (low.toNat - 0xDC00) -
      0x10000) % 0x400 = low.toNat := by omega
  have backHigh : high.toNat.toUInt16 = high := UInt16.ofNat_toNat
  have backLow : low.toNat.toUInt16 = low := UInt16.ofNat_toNat
  rw [encodeChar, pair, toNat_ofNat (by omega) (by omega), if_neg (by omega), first, second,
    backHigh, backLow]

/-- Only the units of a text spell it. -/
theorem encode_of_decode? {units : List UInt16} {text : List Char}
    (spelled : decode? units = some text) : encode text = units := by
  fun_induction decode? units generalizing text with
  | case1 =>
    cases spelled
    rfl
  | case2 high isHigh low more isLow hypothesis =>
    obtain ⟨others, later, rfl⟩ := Option.map_eq_some_iff.mp spelled
    rw [encode, List.flatMap_cons, encodeChar_pair isHigh isLow, ← encode, hypothesis later]
    rfl
  | case3 | case4 | case5 => cases spelled
  | case6 unit rest notHigh notLow hypothesis =>
    obtain ⟨others, later, rfl⟩ := Option.map_eq_some_iff.mp spelled
    rw [encode, List.flatMap_cons, encodeChar_ofNat notHigh notLow, ← encode, hypothesis later]
    rfl

/-- Units are well formed if they are those of a text. -/
def IsWellFormed (units : List UInt16) : Prop := ∃ text, encode text = units

theorem isWellFormed_nil : IsWellFormed [] := ⟨[], rfl⟩

/-- Units that are not well formed spell nothing. -/
theorem decode?_eq_none_iff {units : List UInt16} :
    decode? units = none ↔ ¬ IsWellFormed units := by
  constructor
  · rintro refused ⟨text, rfl⟩
    rw [decode?_encode] at refused
    cases refused
  · intro broken
    rw [Option.eq_none_iff_forall_ne_some]
    intro text spelled
    exact broken ⟨text, encode_of_decode? spelled⟩

end ExtensionCatalog.Text.Utf16
