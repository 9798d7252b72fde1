/-
**What becomes of malformed strings.**

Only the lead bytes of a string constant are looked at. The bytes behind them are read as if they
were of the form `10xxxxxx`, whatever they are: a string with such damage is not refused but read as
another string. Refused is one that ends within a code unit or has a byte where none begins, unless
it is plain UTF-8.

* `Spelling`, `spellings?`: bytes as the code units that their lead bytes announce;
* `isWhole`, `isWellFormed`: whether bytes fall into code units, and into well-formed ones;
* `decode?_eq_none_iff`: when bytes are refused;
* `mend`: bytes with all that is behind the lead bytes brought into the form `10xxxxxx`;
* `mend_eq_self_iff`, `decode?_mend`: only malformed bytes are changed, and nothing of what is read;
* `Draft`, `parse_mended`, `parse_unread`: class files with strings of any bytes;
* `parse_malformed`: **a malformed string is refused or mended**.
-/

import ExtensionCatalog.Proofs.ClassFile.Accepts
import ExtensionCatalog.Proofs.ClassFile.Raw
import ExtensionCatalog.Proofs.Text.Utf8

namespace ExtensionCatalog

namespace ModifiedUtf8

open Text Bytes

/-! ### Code units as they are spelled -/

/-- The bytes of a code unit: a lead byte and as many others as it announces. -/
inductive Spelling where
  | one (lead : UInt8)
  | two (lead second : UInt8)
  | three (lead second third : UInt8)

namespace Spelling

def bytes : Spelling → Bytes
  | one lead => [lead]
  | two lead second => [lead, second]
  | three lead second third => [lead, second, third]

/-- Whether the lead byte announces this number of bytes. -/
def isLed : Spelling → Bool
  | one lead => lead < 0x80
  | two lead _ => 0xC0 ≤ lead && lead ≤ 0xDF
  | three lead _ _ => 0xE0 ≤ lead && lead ≤ 0xEF

/-- Whether the bytes behind the lead byte are of the form `10xxxxxx`. -/
def isWellFormed : Spelling → Bool
  | one _ => true
  | two _ second => Utf8.isContinuation second
  | three _ second third => Utf8.isContinuation second && Utf8.isContinuation third

def unit : Spelling → UInt16
  | one lead => lead.toNat.toUInt16
  | two lead second => (lead.toNat % 32 * 64 + second.toNat % 64).toUInt16
  | three lead second third =>
    (lead.toNat % 16 * 4096 + second.toNat % 64 * 64 + third.toNat % 64).toUInt16

end Spelling

/-- The code units that bytes fall into. -/
def spellings? : Bytes → Option (List Spelling)
  | [] => some []
  | lead :: rest =>
    if lead < 0x80 then (spellings? rest).map (.one lead :: ·)
    else if 0xC0 ≤ lead && lead ≤ 0xDF then
      match rest with
      | second :: more => (spellings? more).map (.two lead second :: ·)
      | [] => none
    else if 0xE0 ≤ lead && lead ≤ 0xEF then
      match rest with
      | second :: third :: more => (spellings? more).map (.three lead second third :: ·)
      | _ => none
    else none

/-- Whether every byte is the lead byte of a code unit or one that such a byte announces. -/
def isWhole (bytes : Bytes) : Bool := (spellings? bytes).isSome

/-- Whether bytes fall into code units with nothing but bytes of the form `10xxxxxx` behind their
lead bytes. -/
def isWellFormed (bytes : Bytes) : Bool := (spellings? bytes).any (·.all Spelling.isWellFormed)

section

variable {bytes : Bytes} {spelling : Spelling} {spelled : List Spelling}

/-- A code unit in front of others. -/
theorem spellings?_bytes_append (led : spelling.isLed) (rest : Bytes) :
    spellings? (spelling.bytes ++ rest) = (spellings? rest).map (spelling :: ·) := by
  cases spelling with
  | one lead =>
    rw [Spelling.isLed, decide_eq_true_eq] at led
    rw [Spelling.bytes, List.singleton_append, spellings?.eq_def]
    simp only [if_pos led]
  | two lead second =>
    obtain ⟨low, high⟩ := range_iff.mp led
    have large : ¬ lead < 0x80 := by
      simp only [UInt8.lt_iff_toNat_lt, UInt8.reduceToNat] at low ⊢
      omega
    rw [Spelling.isLed] at led
    rw [Spelling.bytes, List.cons_append, List.singleton_append, spellings?, if_neg large,
      if_pos led]
  | three lead second third =>
    obtain ⟨low, high⟩ := range_iff.mp led
    have large : ¬ lead < 0x80 := by
      simp only [UInt8.lt_iff_toNat_lt, UInt8.reduceToNat] at low ⊢
      omega
    have other : ¬ (0xC0 ≤ lead && lead ≤ 0xDF) = true := by
      rw [range_iff]
      simp only [UInt8.reduceToNat] at low ⊢
      omega
    rw [Spelling.isLed] at led
    rw [Spelling.bytes, List.cons_append, List.cons_append, List.singleton_append, spellings?,
      if_neg large, if_neg other, if_pos led]

/-- The code units are those whose bytes these are, with lead bytes that announce them. -/
theorem spellings?_eq_some_iff : spellings? bytes = some spelled ↔
    spelled.flatMap Spelling.bytes = bytes ∧ ∀ spelling ∈ spelled, spelling.isLed := by
  constructor
  · intro split
    fun_induction spellings? bytes generalizing spelled with
    | case1 =>
      cases split
      exact ⟨rfl, List.forall_mem_nil _⟩
    | case2 lead rest one hypothesis =>
      obtain ⟨later, found, rfl⟩ := Option.map_eq_some_iff.mp split
      obtain ⟨rfl, led⟩ := hypothesis found
      exact ⟨rfl, List.forall_mem_cons.mpr ⟨decide_eq_true one, led⟩⟩
    | case3 lead _ two second more hypothesis =>
      obtain ⟨later, found, rfl⟩ := Option.map_eq_some_iff.mp split
      obtain ⟨rfl, led⟩ := hypothesis found
      exact ⟨rfl, List.forall_mem_cons.mpr ⟨two, led⟩⟩
    | case5 lead _ _ three second third more hypothesis =>
      obtain ⟨later, found, rfl⟩ := Option.map_eq_some_iff.mp split
      obtain ⟨rfl, led⟩ := hypothesis found
      exact ⟨rfl, List.forall_mem_cons.mpr ⟨three, led⟩⟩
    | _ => cases split
  · rintro ⟨rfl, led⟩
    induction spelled with
    | nil => rfl
    | cons spelling rest hypothesis =>
      rw [List.forall_mem_cons] at led
      rw [List.flatMap_cons, spellings?_bytes_append led.1, hypothesis led.2, Option.map_some]

/-- Bytes are well formed if they can be put together from well-formed code units. -/
theorem isWellFormed_iff : isWellFormed bytes ↔ ∃ spelled : List Spelling,
    spelled.flatMap Spelling.bytes = bytes ∧
      ∀ spelling ∈ spelled, spelling.isLed ∧ spelling.isWellFormed := by
  simp only [isWellFormed, Option.any_eq_true, List.all_eq_true, spellings?_eq_some_iff,
    forall_and, and_assoc]

/-! ### What is read -/

/-- A code unit in front of others is read. -/
theorem units?_bytes_append (led : spelling.isLed) (rest : Bytes) :
    units? (spelling.bytes ++ rest) = (units? rest).map (spelling.unit :: ·) := by
  cases spelling with
  | one lead =>
    rw [Spelling.isLed, decide_eq_true_eq, UInt8.lt_iff_toNat_lt] at led
    exact units?_one led
  | two lead second =>
    obtain ⟨low, high⟩ := range_iff.mp led
    exact units?_two low high
  | three lead second third =>
    obtain ⟨low, high⟩ := range_iff.mp led
    exact units?_three low high

theorem units?_of_spellings? (found : spellings? bytes = some spelled) :
    units? bytes = some (spelled.map Spelling.unit) := by
  obtain ⟨rfl, led⟩ := spellings?_eq_some_iff.mp found
  clear found
  induction spelled with
  | nil => rfl
  | cons spelling rest hypothesis =>
    rw [List.forall_mem_cons] at led
    rw [List.flatMap_cons, units?_bytes_append led.1, hypothesis led.2, Option.map_some,
      List.map_cons]

/-- Units are only read from bytes that fall into code units. -/
theorem isWhole_of_units? {units : List UInt16} (complete : units? bytes = some units) :
    isWhole bytes := by
  have grown (spelling : Spelling) {rest : Bytes} (led : spelling.isLed) (whole : isWhole rest) :
      isWhole (spelling.bytes ++ rest) := by
    rw [isWhole, spellings?_bytes_append led, Option.isSome_map]
    exact whole
  -- Reading tests lead bytes by their bits, which comes to the ranges that they are in.
  fun_induction units? bytes generalizing units with
  | case1 => rfl
  | case2 lead rest one hypothesis =>
    obtain ⟨later, found, rfl⟩ := Option.map_eq_some_iff.mp complete
    exact grown (.one lead) (decide_eq_true one) (hypothesis found)
  | case3 lead _ two second more hypothesis =>
    obtain ⟨later, found, rfl⟩ := Option.map_eq_some_iff.mp complete
    exact grown (.two lead second) (range_iff.mpr ((twoByteLead_iff lead).mp two))
      (hypothesis found)
  | case5 lead _ _ three second third more hypothesis =>
    obtain ⟨later, found, rfl⟩ := Option.map_eq_some_iff.mp complete
    exact grown (.three lead second third)
      (range_iff.mpr ((threeByteLead_iff lead).mp three)) (hypothesis found)
  | _ => cases complete

/-- Bytes that are not plain UTF-8 are refused exactly if they do not fall into code units or these
are no text. -/
theorem decode?_eq_none_iff (notUtf8 : Utf8.decode? bytes = none) : decode? bytes = none ↔
    ∀ spelled, spellings? bytes = some spelled →
      Utf16.decode? (spelled.map Spelling.unit) = none := by
  cases found : spellings? bytes with
  | some spelled =>
    rw [decode?_of_complete (units?_of_spellings? found)]
    exact ⟨fun unpaired _ same => Option.some.inj same ▸ unpaired, fun each => each _ rfl⟩
  | none =>
    have incomplete : units? bytes = none := by
      cases complete : units? bytes with
      | none => rfl
      | some units =>
        have whole := isWhole_of_units? complete
        rw [isWhole, found] at whole
        cases whole
    refine iff_of_true ?_ fun _ other => by cases other
    rw [decode?, notUtf8, incomplete]
    rfl

end

/-! ### Mending -/

/-- The byte of the form `10xxxxxx` with the same six lowest bits. -/
def continuation (byte : UInt8) : UInt8 := (0x80 + byte.toNat % 64).toUInt8

theorem toNat_continuation (byte : UInt8) :
    (continuation byte).toNat = 0x80 + byte.toNat % 64 := toNat_byte _ (by omega)

theorem isContinuation_continuation (byte : UInt8) : Utf8.isContinuation (continuation byte) := by
  rw [Utf8.isContinuation_iff, toNat_continuation]
  omega

theorem continuation_eq_self_iff {byte : UInt8} :
    continuation byte = byte ↔ Utf8.isContinuation byte := by
  rw [← UInt8.toNat_inj, toNat_continuation, Utf8.isContinuation_iff]
  omega

namespace Spelling

/-- A code unit with the bytes behind its lead byte brought into the form `10xxxxxx`. -/
def mended : Spelling → Spelling
  | one lead => one lead
  | two lead second => two lead (continuation second)
  | three lead second third => three lead (continuation second) (continuation third)

variable (spelling : Spelling)

theorem isLed_mended : spelling.mended.isLed = spelling.isLed := by cases spelling <;> rfl

theorem isWellFormed_mended : spelling.mended.isWellFormed := by
  cases spelling <;> simp only [mended, isWellFormed, isContinuation_continuation, Bool.and_self]

theorem unit_mended : spelling.mended.unit = spelling.unit := by
  cases spelling <;> simp only [mended, unit, toNat_continuation, Nat.add_mod, Nat.mod_mod,
    Nat.reduceMod, Nat.zero_add]

theorem mended_eq_self_iff {spelling : Spelling} :
    spelling.mended = spelling ↔ spelling.isWellFormed := by
  cases spelling <;> simp [mended, isWellFormed, continuation_eq_self_iff]

end Spelling

/-- Bytes with all that is behind lead bytes brought into the form `10xxxxxx`, as long as they fall
into code units. -/
def mend (bytes : Bytes) : Bytes :=
  match spellings? bytes with
  | some spelled => spelled.flatMap fun spelling => spelling.mended.bytes
  | none => bytes

variable {bytes : Bytes}

/-- What is mended falls into the mended code units. -/
theorem spellings?_mend (bytes : Bytes) :
    spellings? (mend bytes) = (spellings? bytes).map (List.map Spelling.mended) := by
  rw [mend]
  split
  case h_1 spelled found =>
    have led := (spellings?_eq_some_iff.mp found).2
    rw [found, Option.map_some, spellings?_eq_some_iff, List.flatMap_map]
    refine ⟨rfl, List.forall_mem_map.mpr fun spelling member => ?_⟩
    rw [Spelling.isLed_mended]
    exact led spelling member
  case h_2 broken => rw [broken, Option.map_none]

/-- Mending changes nothing of what is read. -/
theorem decode?_mend (bytes : Bytes) : decode? (mend bytes) = decode? bytes := by
  cases found : spellings? bytes with
  | none => rw [mend, found]
  | some spelled =>
    have mended : spellings? (mend bytes) = some (spelled.map Spelling.mended) := by
      rw [spellings?_mend, found, Option.map_some]
    -- Complete units alone decide what is read, and mending leaves the bits that they are made of.
    have units : (spelled.map Spelling.mended).map Spelling.unit = spelled.map Spelling.unit := by
      simp only [List.map_map, Function.comp_def, Spelling.unit_mended]
    rw [decode?_of_complete (units?_of_spellings? mended), units,
      decode?_of_complete (units?_of_spellings? found)]

/-- Whatever falls into code units is well formed when it is mended. -/
theorem isWellFormed_mend (whole : isWhole bytes) : isWellFormed (mend bytes) := by
  obtain ⟨spelled, found⟩ := Option.isSome_iff_exists.mp whole
  have led := (spellings?_eq_some_iff.mp found).2
  refine isWellFormed_iff.mpr ⟨spelled.map Spelling.mended, ?_, List.forall_mem_map.mpr ?_⟩
  · rw [mend, found, List.flatMap_map]
  · intro spelling member
    rw [Spelling.isLed_mended]
    exact ⟨led spelling member, spelling.isWellFormed_mended⟩

/-- Exactly the well-formed bytes are left as they are. -/
theorem mend_eq_self_iff (whole : isWhole bytes) : mend bytes = bytes ↔ isWellFormed bytes := by
  constructor
  · intro same
    rw [← same]
    exact isWellFormed_mend whole
  · obtain ⟨spelled, found⟩ := Option.isSome_iff_exists.mp whole
    intro wellFormed
    rw [isWellFormed, found, Option.any_some, List.all_eq_true] at wellFormed
    rw [mend, found]
    conv_rhs => rw [← (spellings?_eq_some_iff.mp found).1]
    exact List.flatMap_congr fun spelling member => by
      rw [Spelling.mended_eq_self_iff.mpr (wellFormed spelling member)]

theorem length_mend (bytes : Bytes) : (mend bytes).length = bytes.length := by
  rw [mend]
  split
  case h_1 spelled found =>
    obtain ⟨rfl, -⟩ := spellings?_eq_some_iff.mp found
    rw [List.length_flatMap, List.length_flatMap]
    congr 2
    funext spelling
    cases spelling <;> rfl
  case h_2 => rfl

end ModifiedUtf8

/-! ### Class files -/

namespace ClassFile.Layout

open ByteReader ModifiedUtf8

namespace Raw

/-- A constant with its string mended, if it is one. -/
def mended : Raw → Raw
  | string body => string (mend body)
  | known entry => known entry

variable (raw : Raw)

theorem constant?_mended : raw.mended.constant? = raw.constant? := by
  cases raw with
  | string body => rw [mended, constant?, constant?, decode?_mend]
  | known entry => rfl

theorem fits_mended : raw.mended.fits = raw.fits := by
  cases raw with
  | string body => rw [mended, fits, fits, length_mend]
  | known entry => rfl

theorem places_mended : raw.mended.places = raw.places := by cases raw <;> rfl

end Raw

/-- A class file with strings of any bytes, and with anything behind its constants. -/
structure Draft where
  minorVersion : UInt16
  majorVersion : UInt16
  constants : List Raw
  behind : Bytes

namespace Draft

def bytes (draft : Draft) : Bytes :=
  headBytes draft.minorVersion draft.majorVersion ++
    ((Bytes.spell 2 (rawPlaces draft.constants + 1) ++ draft.constants.flatMap Raw.bytes) ++
      draft.behind)

def fits (draft : Draft) : Bool :=
  rawPlaces draft.constants + 1 < 0x10000 && draft.constants.all Raw.fits

def mended (draft : Draft) : Draft :=
  { draft with constants := draft.constants.map Raw.mended }

end Draft

theorem rawPlaces_map_mended (constants : List Raw) :
    rawPlaces (constants.map Raw.mended) = rawPlaces constants := by
  induction constants with
  | nil => rfl
  | cons raw rest hypothesis =>
    rw [List.map_cons, rawPlaces, rawPlaces, Raw.places_mended, hypothesis]

/-- Mended constants are read as what is read without mending them. -/
theorem readPlaces_mended {constants : List Raw} (fits : ∀ raw ∈ constants, raw.fits) (index : Nat)
    (input : Bytes) :
    ConstantPool.readPlaces (rawPlaces constants) index
        ((constants.map Raw.mended).flatMap Raw.bytes ++ input) =
      ConstantPool.readPlaces (rawPlaces constants) index
        (constants.flatMap Raw.bytes ++ input) := by
  induction constants generalizing index with
  | nil => rfl
  | cons raw rest hypothesis =>
    rw [List.forall_mem_cons] at fits
    obtain ⟨fits, later⟩ := fits
    have fitsMended : raw.mended.fits := by rwa [Raw.fits_mended]
    rw [List.map_cons, List.flatMap_cons, List.flatMap_cons, rawPlaces]
    cases read : raw.constant? with
    | some constant =>
      have readMended := raw.constant?_mended.trans read
      rw [Raw.places_eq read, List.append_assoc, List.append_assoc,
        readPlaces_of_yields (Raw.yields fitsMended readMended index),
        readPlaces_of_yields (Raw.yields fits read index), hypothesis later]
    | none =>
      have unreadMended := raw.constant?_mended.trans read
      rw [Raw.places_of_unread read, Nat.add_comm,
        readPlaces_of_fails (Raw.fails fitsMended unreadMended index) _ _ input,
        readPlaces_of_fails (Raw.fails fits read index) _ _ input]

namespace Draft

variable {draft : Draft}

theorem small (fits : draft.fits) : rawPlaces draft.constants + 1 < 0x10000 := by
  rw [Draft.fits, Bool.and_eq_true] at fits
  exact of_decide_eq_true fits.1

theorem each (fits : draft.fits) : ∀ raw ∈ draft.constants, raw.fits := by
  rw [Draft.fits, Bool.and_eq_true] at fits
  exact List.all_eq_true.mp fits.2

/-- A class file is read as what it is with all strings mended. -/
theorem parse_mended (fits : draft.fits) :
    ClassFile.parse draft.mended.bytes = ClassFile.parse draft.bytes := by
  have count := yields_count (small fits)
  -- A mended string is as long as before, so counts and lengths stay what they are.
  have pool : ConstantPool.read (Bytes.spell 2 (rawPlaces draft.constants + 1) ++
        ((draft.constants.map Raw.mended).flatMap Raw.bytes ++ draft.behind)) =
      ConstantPool.read (Bytes.spell 2 (rawPlaces draft.constants + 1) ++
        (draft.constants.flatMap Raw.bytes ++ draft.behind)) := by
    rw [ConstantPool.read, count.bind_apply, count.bind_apply,
      Text.Utf16.toNat_unit _ (small fits)]
    dsimp only
    rw [map_apply, map_apply, readPlaces_mended (each fits)]
  rw [bytes, bytes, mended, rawPlaces_map_mended, List.append_assoc (Bytes.spell 2 _),
    List.append_assoc (Bytes.spell 2 _), parse_headBytes, parse_headBytes]
  show ((ConstantPool.read _ >>= _).map _ : Except _ _) = ((ConstantPool.read _ >>= _).map _)
  rw [pool]

/-- A string that is not read stops the reading of a class file. -/
theorem parse_unread (fits : draft.fits) {place : Nat}
    (unread : firstUnread 1 draft.constants = some place) :
    ClassFile.parse draft.bytes = .error (.malformedString place) := by
  have pool := fails_pool (small fits) (fails_unread (each fits) unread)
  rw [bytes, parse_headBytes,
    ← List.append_nil (Bytes.spell 2 _ ++ draft.constants.flatMap Raw.bytes ++ draft.behind),
    pool.bind _ _ []]
  rfl

end Draft

/-- **A malformed string is refused or mended.** Neither plain UTF-8 nor well formed, a string is
refused exactly if it does not fall into code units or these are no text. Otherwise, what is wrong
with it is only seen in the two highest bits of bytes behind lead bytes, and it is read as the
other, well-formed string without these faults. A class file with it is read as if all its strings
were mended, and refused if this one is refused. -/
theorem parse_malformed {bytes : Bytes} (notUtf8 : Text.Utf8.decode? bytes = none)
    (malformed : isWellFormed bytes = false) :
    (decode? bytes = none ↔ ∀ spelled, spellings? bytes = some spelled →
      Text.Utf16.decode? (spelled.map Spelling.unit) = none) ∧
    (isWhole bytes = true → mend bytes ≠ bytes ∧ isWellFormed (mend bytes) = true ∧
      decode? bytes = decode? (mend bytes)) ∧
    ∀ draft : Draft, draft.fits → .string bytes ∈ draft.constants →
      ClassFile.parse draft.bytes = ClassFile.parse draft.mended.bytes ∧
      (decode? bytes = none → ∃ place, firstUnread 1 draft.constants = some place ∧
        ClassFile.parse draft.bytes = .error (.malformedString place)) := by
  refine ⟨decode?_eq_none_iff notUtf8, fun whole => ?mended, fun draft fits member =>
    ⟨(Draft.parse_mended fits).symm, fun undecoded => ?refused⟩⟩
  case mended =>
    refine ⟨fun same => ?_, isWellFormed_mend whole, (decode?_mend bytes).symm⟩
    rw [(mend_eq_self_iff whole).mp same] at malformed
    cases malformed
  case refused =>
    have unread : (Raw.string bytes).constant? = none := Option.map_eq_none_iff.mpr undecoded
    obtain ⟨place, first⟩ := Option.isSome_iff_exists.mp (isSome_firstUnread member unread 1)
    exact ⟨place, first, Draft.parse_unread fits first⟩

/-- The class file of a class with a string that nothing refers to. -/
def withString (body : Bytes) : Draft where
  minorVersion := 0
  majorVersion := 52
  constants := [.known (.text "a/B"), .known (.classRef 1), .string body]
  behind := Bytes.spell 2 1 ++ (Bytes.spell 2 2 ++ List.replicate 10 0)

/-- A letter in place of a byte of the form `10xxxxxx` makes another string of it, and only one that
is missing is noticed. -/
theorem parse_malformed_accent :
    (Text.Utf8.decode? [0xC3, 0x41] = none ∧ isWellFormed [0xC3, 0x41] = false ∧
      decode? [0xC3, 0x41] = decode? (mend [0xC3, 0x41]) ∧ mend [0xC3, 0x41] = [0xC3, 0x81] ∧
      ClassFile.parse (withString [0xC3, 0x41]).bytes =
        ClassFile.parse (withString [0xC3, 0x41]).mended.bytes) ∧
    Text.Utf8.decode? [0x41, 0xC3] = none ∧ isWellFormed [0x41, 0xC3] = false ∧
      decode? [0x41, 0xC3] = none ∧
      ClassFile.parse (withString [0x41, 0xC3]).bytes = .error (.malformedString 3) := by
  have letter : Text.Utf8.decode? [0xC3, 0x41] = none := by decide
  have letterMalformed : isWellFormed [0xC3, 0x41] = false := by decide
  have letterFits : (withString [0xC3, 0x41]).fits := by decide +kernel
  have cut : Text.Utf8.decode? [0x41, 0xC3] = none := by decide
  have cutMalformed : isWellFormed [0x41, 0xC3] = false := by decide
  have cutFits : (withString [0x41, 0xC3]).fits := by decide +kernel
  obtain ⟨-, mended, letterFiles⟩ := parse_malformed letter letterMalformed
  obtain ⟨refused, -, cutFiles⟩ := parse_malformed cut cutMalformed
  have undecoded := refused.mpr fun _ found => by cases found
  obtain ⟨place, first, parsed⟩ := (cutFiles _ cutFits (by simp [withString])).2 undecoded
  have third : firstUnread 1 (withString [0x41, 0xC3]).constants = some 3 := by decide +kernel
  cases first.symm.trans third
  exact ⟨⟨letter, letterMalformed, (mended rfl).2.2, by decide,
    (letterFiles _ letterFits (by simp [withString])).1⟩, cut, cutMalformed, undecoded, parsed⟩

/-- Not every malformed string is refused. -/
theorem not_forall_refused : ¬ ∀ bytes : Bytes, Text.Utf8.decode? bytes = none →
    isWellFormed bytes = false → decode? bytes = none := by
  intro refused
  have read : decode? [0xC3, 0x41] = some ['Á'] := by decide
  rw [refused [0xC3, 0x41] (by decide) (by decide)] at read
  cases read

end ClassFile.Layout

end ExtensionCatalog
