/-
**Escaping: how a character is written, and that it is read back.**

`Spelling` says once what the written form of a character can be: the character itself, a
backslash and one other character, or the escapes of its code units. Everything else is derived
from that.

* `spelling_escapeChar`: every character is written in one of these ways;
* `visible_escapeChar`: what is written is visible ASCII, so it ends no line;
* `unescape_escapeKey`, `unescape_escapeValue`: **undoing the escapes gives the text again**. The
  induction carries the code units read just before, which spell the text before them.
-/

import ExtensionCatalog.Properties

namespace ExtensionCatalog.Properties

open Text

/-- A character that an ASCII terminal shows, or a space. -/
def isVisible (c : Char) : Bool := ' ' ≤ c && c ≤ '~'

/-- The signs that stand for something else unless they are escaped. -/
def signs : List Char := ['\\', '=', ':', '#', '!']

/-- The written forms of a character. -/
inductive Spelling (guarded : Bool) (c : Char) : List Char → Prop
  /-- A visible character that is no sign stands for itself, a space only where none is guarded. -/
  | plain (visible : isVisible c = true) (ordinary : c ∉ signs) (free : guarded = true → c ≠ ' ') :
      Spelling guarded c [c]
  /-- A backslash and a visible character that stands for `c`. -/
  | mark (sign : Char) (visible : isVisible sign = true) (other : sign ≠ 'u')
      (meaning : escaped sign = c) : Spelling guarded c ['\\', sign]
  /-- The escapes of the code units. -/
  | units : Spelling guarded c ((Utf16.encodeChar c).flatMap escapeUnit)

/-- Every character is written in one of these ways. -/
theorem spelling_escapeChar (guarded : Bool) (c : Char) :
    Spelling guarded c (escapeChar guarded c) := by
  unfold escapeChar
  split
  · cases guarded with
    | false => exact .plain (by decide) (by decide) (by decide)
    | true => exact .mark ' ' (by decide) (by decide) (by decide)
  iterate 9 exact .mark _ (by decide) (by decide) (by decide)
  · split
    · next visible => exact .plain visible (by simp_all [signs]) fun _ => by assumption
    · exact .units

/-! ### Code units -/

/-- The digits of a code unit are visible, and none of them is a sign or a blank. -/
theorem digit_escapeUnit {unit : UInt16} {c : Char} (member : c ∈ Numeral.padded 16 4 unit.toNat) :
    isVisible c = true ∧ c ∉ signs ∧ isBlank c = false := by
  obtain ⟨digit, below, rfl⟩ := Numeral.mem_padded (by decide) member
  have all : ∀ digit < 16, isVisible (Numeral.digitChar digit) = true ∧
      Numeral.digitChar digit ∉ signs ∧ isBlank (Numeral.digitChar digit) = false := by decide
  exact all digit below

theorem encodeChar_ne_nil (c : Char) : Utf16.encodeChar c ≠ [] := by
  unfold Utf16.encodeChar
  split <;> simp

/-- The digits of a code unit are read as that unit. -/
theorem unitOf_padded (unit : UInt16) : unitOf (Numeral.padded 16 4 unit.toNat) = .ok unit := by
  have small : unit.toNat % Nat.pow 16 (3 + 1) = unit.toNat := Nat.mod_eq_of_lt unit.toNat_lt
  rw [unitOf, Numeral.read?_padded (by decide) (by decide), small]
  simp

/-- The escape of a code unit adds the unit to those read before. -/
theorem unescapeAfter_escapeUnit (units : List UInt16) (unit : UInt16) (rest : List Char) :
    unescapeAfter units (escapeUnit unit ++ rest) = unescapeAfter (units ++ [unit]) rest := by
  have read := unitOf_padded unit
  simp only [Numeral.padded, List.nil_append, List.cons_append] at read
  simp only [escapeUnit, Numeral.padded, List.nil_append, List.cons_append]
  rw [unescapeAfter, read]
  rfl

theorem unescapeAfter_escapeUnits (units more : List UInt16) (rest : List Char) :
    unescapeAfter units (more.flatMap escapeUnit ++ rest) = unescapeAfter (units ++ more) rest := by
  induction more generalizing units with
  | nil => simp
  | cons unit more hypothesis =>
    rw [List.flatMap_cons, List.append_assoc, unescapeAfter_escapeUnit, hypothesis,
      List.append_assoc, List.singleton_append]

/-! ### Visible text -/

/-- What is written is visible ASCII. -/
theorem visible_escapeChar {guarded : Bool} {c written : Char}
    (member : written ∈ escapeChar guarded c) : isVisible written = true := by
  generalize spelled : escapeChar guarded c = spelling at member
  cases spelled ▸ spelling_escapeChar guarded c with
  | plain visible => simpa using List.mem_singleton.mp member ▸ visible
  | mark sign visible =>
    rcases List.mem_cons.mp member with rfl | last
    · decide
    · exact List.mem_singleton.mp last ▸ visible
  | units =>
    obtain ⟨unit, -, digit⟩ := List.mem_flatMap.mp member
    rcases List.mem_append.mp digit with head | digit
    · rcases List.mem_cons.mp head with rfl | last
      · decide
      · rw [List.mem_singleton.mp last]
        decide
    · exact (digit_escapeUnit digit).1

/-! ### Undoing the escapes -/

/-- **One written character.** If the code units read before spell `before`, and the rest goes on
to be read as `text` after any such units, then the character comes between the two. -/
theorem unescapeAfter_escapeChar {guarded : Bool} {c : Char} {rest text : List Char}
    (continued : ∀ before, unescapeAfter (Utf16.encode before) rest = .ok (before ++ text))
    (before : List Char) :
    unescapeAfter (Utf16.encode before) (escapeChar guarded c ++ rest) =
      .ok (before ++ c :: text) := by
  have flushed : flush (Utf16.encode before) = .ok before := by
    rw [flush, Utf16.decode?_encode]
  have fresh : unescapeAfter [] rest = .ok text := continued []
  generalize spelled : escapeChar guarded c = spelling
  cases spelled ▸ spelling_escapeChar guarded c with
  | plain visible ordinary =>
    have different : c ≠ '\\' := fun equal => ordinary (by simp [equal, signs])
    rw [List.singleton_append, unescapeAfter.eq_def]
    split
    · simp_all
    · simp_all
    · next equal =>
      cases equal
      rw [flushed]
      simp [fresh, bind, Except.bind, pure, Except.pure]
  | mark sign visible other meaning =>
    rw [List.cons_append, List.singleton_append, unescapeAfter]
    · rw [flushed, fresh, meaning]
      rfl
    · exact other
  | units =>
    have joined : Utf16.encode before ++ Utf16.encodeChar c = Utf16.encode (before ++ [c]) := by
      simp [Utf16.encode]
    rw [unescapeAfter_escapeUnits, joined, continued, List.append_assoc, List.singleton_append]

/-- Undoing the escapes of a text, after code units that spell the text before it. -/
theorem unescapeAfter_flatMap_escapeChar (guarded : Bool) (text before : List Char) :
    unescapeAfter (Utf16.encode before) (text.flatMap (escapeChar guarded)) =
      .ok (before ++ text) := by
  induction text generalizing before with
  | nil => rw [List.flatMap_nil, unescapeAfter, flush, Utf16.decode?_encode, List.append_nil]
  | cons c text hypothesis =>
    rw [List.flatMap_cons]
    exact unescapeAfter_escapeChar hypothesis before

/-- **Undoing the escapes of a key gives the key.** -/
theorem unescape_escapeKey (text : List Char) : unescape (escapeKey text) = .ok text :=
  unescapeAfter_flatMap_escapeChar true text []

/-- **Undoing the escapes of a value gives the value.** -/
theorem unescape_escapeValue (text : List Char) : unescape (escapeValue text) = .ok text := by
  cases text with
  | nil => rfl
  | cons c rest =>
    exact unescapeAfter_escapeChar (unescapeAfter_flatMap_escapeChar false rest) []

end ExtensionCatalog.Properties
