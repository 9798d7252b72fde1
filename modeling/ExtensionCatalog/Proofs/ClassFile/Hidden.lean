/-
**Class files with strings that are not looked at.**

A string constant is a sequence of code units, and any sequence can be written, whether or not its
surrogates are paired. All constants are decoded before it is known which ones matter, so a string
that is no text stops the reading even where nothing refers to it.

* `Stored`: a constant that a class file may refer to, or a string of any units;
* `bytesWith`: the bytes of a class file with other strings among its constants;
* `firstUnpaired`: the index of the first string that is no text;
* `ShownAs`, `exists_shownAs`: the constants that are read if all strings are texts;
* `Stored.raw`, `fails_unpaired`: the first string that is no text stops the reading of constants;
* `parse_paired`, `parse_unpaired`: whole class files of both kinds;
* `parse_bytesWith`: **a class file is read unless some string is no text, and as the same thing
  whatever the strings are that nothing refers to**.
-/

import ExtensionCatalog.Proofs.ClassFile.Accepts
import ExtensionCatalog.Proofs.ClassFile.Raw

namespace ExtensionCatalog.ClassFile.Layout

open Text ByteReader

/-! ### Constants with strings that nothing refers to -/

/-- A constant as it is written, or a string of any code units. -/
inductive Stored where
  | shown (entry : Entry)
  | hidden (units : List UInt16)

namespace Stored

/-- A constant as far as a class file refers to it: a hidden string only takes a place. -/
def entry : Stored → Entry
  | shown entry => entry
  | hidden _ => .link .string 0

/-- The constant that is read, unless it is a string that is no text. -/
def shown? : Stored → Option Entry
  | shown entry => some entry
  | hidden units => (Utf16.decode? units).map fun text => .text (String.ofList text)

def bytes : Stored → Bytes
  | shown entry => entry.bytes
  | hidden units =>
    let body := units.flatMap ModifiedUtf8.encodeUnit
    [1] ++ (Bytes.spell 2 body.length ++ body)

def fits : Stored → Bool
  | shown entry => entry.fits
  | hidden units => (units.flatMap ModifiedUtf8.encodeUnit).length < 0x10000

end Stored

/-- The index of the first constant that is no text, if the constants begin at an index. -/
def firstUnpaired : Nat → List Stored → Option Nat
  | _, [] => none
  | index, stored :: rest =>
    if stored.shown?.isSome then firstUnpaired (index + stored.entry.places) rest else some index

/-- The bytes of a class file with other strings among its constants. -/
def bytesWith (layout : Layout) (stored : List Stored) : Bytes :=
  Bytes.spell 4 magic.toNat ++ (Bytes.spell 2 layout.minorVersion.toNat ++
    (Bytes.spell 2 layout.majorVersion.toNat ++
    ((Bytes.spell 2 (places layout.pool + 1) ++ stored.flatMap Stored.bytes) ++
    layout.bodyBytes)))

theorem bytesWith_eq (layout : Layout) (stored : List Stored) :
    layout.bytesWith stored = headBytes layout.minorVersion layout.majorVersion ++
      ((Bytes.spell 2 (places layout.pool + 1) ++ stored.flatMap Stored.bytes) ++
        layout.bodyBytes) := by
  simp only [bytesWith, headBytes, List.append_assoc]

/-- Without hidden strings, these are the bytes of the class file. -/
theorem bytesWith_shown (layout : Layout) :
    layout.bytesWith (layout.pool.map .shown) = layout.bytes := by
  have same : (layout.pool.map .shown).flatMap Stored.bytes = layout.pool.flatMap Entry.bytes :=
    List.flatMap_map _ _ _
  rw [bytesWith, same]
  rfl

/-! ### Constants that are read -/

namespace Stored

variable {stored : Stored} {entry : Entry}

/-- What is read is what is there, or the text of a hidden string. -/
theorem shown?_cases (read : stored.shown? = some entry) : stored = .shown entry ∨
    ∃ text : String, stored = .hidden (Utf16.encode text.toList) ∧ entry = .text text := by
  cases stored with
  | shown entry =>
    cases read
    exact .inl rfl
  | hidden units =>
    obtain ⟨text, spelled, rfl⟩ := Option.map_eq_some_iff.mp read
    refine .inr ⟨String.ofList text, ?_, rfl⟩
    rw [String.toList_ofList, Utf16.encode_of_decode? spelled]

theorem bytes_of_shown? (read : stored.shown? = some entry) : stored.bytes = entry.bytes := by
  rcases shown?_cases read with rfl | ⟨text, rfl, rfl⟩ <;> rfl

theorem fits_of_shown? (read : stored.shown? = some entry) (fits : stored.fits) : entry.fits := by
  rcases shown?_cases read with rfl | ⟨text, rfl, rfl⟩ <;> exact fits

theorem places_of_shown? (read : stored.shown? = some entry) :
    stored.entry.places = entry.places := by
  rcases shown?_cases read with rfl | ⟨text, rfl, rfl⟩ <;> rfl

/-- What is read is what is referred to, if that is told apart at all. -/
theorem eq_of_shown? (read : stored.shown? = some entry)
    (known : stored.entry.constant ≠ .other) : stored.entry = entry := by
  rcases shown?_cases read with rfl | ⟨text, rfl, rfl⟩
  · rfl
  · exact absurd rfl known

end Stored

/-- Constants are read as certain ones, none of them a string that is no text. -/
def ShownAs : List Stored → List Entry → Prop :=
  List.Forall₂ fun stored entry => stored.shown? = some entry

namespace ShownAs

variable {stored : List Stored} {entries : List Entry}

theorem bytes (shown : ShownAs stored entries) :
    stored.flatMap Stored.bytes = entries.flatMap Entry.bytes := by
  induction shown with
  | nil => rfl
  | cons read _ hypothesis =>
    rw [List.flatMap_cons, List.flatMap_cons, Stored.bytes_of_shown? read, hypothesis]

theorem places (shown : ShownAs stored entries) :
    places (stored.map Stored.entry) = places entries := by
  induction shown with
  | nil => rfl
  | cons read _ hypothesis =>
    rw [List.map_cons, Layout.places, Layout.places, Stored.places_of_shown? read, hypothesis]

theorem fits (shown : ShownAs stored entries) (fit : ∀ constant ∈ stored, constant.fits) :
    ∀ entry ∈ entries, entry.fits := by
  induction shown with
  | nil => exact fun entry member => by cases member
  | cons read _ hypothesis =>
    rw [List.forall_mem_cons] at fit ⊢
    exact ⟨Stored.fits_of_shown? read fit.1, hypothesis fit.2⟩

/-- A constant that is told apart is read where it is. -/
theorem entryAt? (shown : ShownAs stored entries) {place : Nat} {entry : Entry}
    (here : entryAt? (stored.map Stored.entry) place = some entry)
    (known : entry.constant ≠ .other) : entryAt? entries place = some entry := by
  induction shown generalizing place with
  | nil => exact here
  | cons read _ hypothesis =>
    cases place with
    | zero =>
      cases here
      rw [Layout.entryAt?, Stored.eq_of_shown? read known]
    | succ place =>
      rw [List.map_cons, Layout.entryAt?, Stored.places_of_shown? read] at here
      obtain ⟨past, later⟩ := Option.ite_none_left_eq_some.mp here
      rw [Layout.entryAt?, if_neg past, hypothesis later]

/-- Whatever hidden strings there are, the constants that are referred to can be looked up. -/
theorem shares (shown : ShownAs stored entries) :
    Shares (stored.map Stored.entry) (held entries) := by
  intro index entry here known
  rw [denoted?] at here
  obtain ⟨positive, found⟩ := Option.ite_none_left_eq_some.mp here
  apply constant_held
  rw [denoted?, if_neg positive, shown.entryAt? found known]

end ShownAs

/-- Without a string that is no text, all constants are read. -/
theorem exists_shownAs {stored : List Stored} {index : Nat}
    (paired : firstUnpaired index stored = none) : ∃ entries, ShownAs stored entries := by
  induction stored generalizing index with
  | nil => exact ⟨[], .nil⟩
  | cons constant rest hypothesis =>
    rw [firstUnpaired] at paired
    split at paired
    next text =>
      obtain ⟨entry, read⟩ := Option.isSome_iff_exists.mp text
      obtain ⟨entries, shown⟩ := hypothesis paired
      exact ⟨entry :: entries, .cons read shown⟩
    next => cases paired

/-! ### Constants that are not read -/

namespace Stored

/-- A constant as its bytes stand. -/
def raw : Stored → Raw
  | shown entry => .known entry
  | hidden units => .string (units.flatMap ModifiedUtf8.encodeUnit)

variable (stored : Stored)

theorem bytes_raw : stored.raw.bytes = stored.bytes := by cases stored <;> rfl

theorem fits_raw : stored.raw.fits = stored.fits := by cases stored <;> rfl

theorem places_raw : stored.raw.places = stored.entry.places := by cases stored <;> rfl

/-- The strings that are not read are those that are no text. -/
theorem isSome_constant?_raw : stored.raw.constant?.isSome = stored.shown?.isSome := by
  cases stored with
  | shown entry => rfl
  | hidden units =>
    rw [raw, Raw.constant?, shown?, ModifiedUtf8.decode?_flatMap_encodeUnit, Option.isSome_map,
      Option.isSome_map]

end Stored

theorem rawPlaces_raw (stored : List Stored) :
    rawPlaces (stored.map Stored.raw) = places (stored.map Stored.entry) := by
  induction stored with
  | nil => rfl
  | cons constant rest hypothesis =>
    rw [List.map_cons, List.map_cons, rawPlaces, places, Stored.places_raw, hypothesis]

theorem firstUnread_raw (index : Nat) (stored : List Stored) :
    firstUnread index (stored.map Stored.raw) = firstUnpaired index stored := by
  induction stored generalizing index with
  | nil => rfl
  | cons constant rest hypothesis =>
    rw [List.map_cons, firstUnread, firstUnpaired, Stored.isSome_constant?_raw,
      Stored.places_raw, hypothesis]

/-- The first string that is no text stops the reading of constants. -/
theorem fails_unpaired {stored : List Stored} {index place : Nat}
    (unpaired : firstUnpaired index stored = some place)
    (fit : ∀ constant ∈ stored, constant.fits) :
    Fails (ConstantPool.readPlaces (places (stored.map Stored.entry)) index)
      (stored.flatMap Stored.bytes) (.malformedString place) := by
  have fits : ∀ raw ∈ stored.map Stored.raw, raw.fits := by
    refine List.forall_mem_map.mpr fun constant member => ?_
    rw [Stored.fits_raw]
    exact fit constant member
  have fails := fails_unread fits ((firstUnread_raw index stored).trans unpaired)
  rw [rawPlaces_raw, List.flatMap_map] at fails
  simpa only [Stored.bytes_raw] using fails

/-! ### Whole class files -/

/-- Constants without hidden strings are all read. -/
theorem firstUnpaired_shown (index : Nat) (entries : List Entry) :
    firstUnpaired index (entries.map .shown) = none := by
  induction entries generalizing index with
  | nil => rfl
  | cons entry rest hypothesis =>
    rw [List.map_cons, firstUnpaired]
    exact (if_pos rfl).trans (hypothesis _)

theorem places_lt_of_fits {layout : Layout} (fits : layout.fits) :
    places layout.pool + 1 < 0x10000 := by
  simp only [Layout.fits, Bool.and_eq_true, decide_eq_true_eq] at fits
  exact fits.1.1.1.1.1

/-- Without a string that is no text, a class file is read as the same thing whatever the strings
are that nothing refers to. -/
theorem parse_paired {layout : Layout} (refers : layout.refers) (fits : layout.fits) :
    ∃ file, ∀ stored : List Stored, stored.map Stored.entry = layout.pool →
      (∀ constant ∈ stored, constant.fits) → firstUnpaired 1 stored = none →
      ClassFile.parse (layout.bytesWith stored) = .ok file := by
  obtain ⟨file, yields⟩ := accepts_body refers fits
  refine ⟨file, fun stored same fit paired => ?_⟩
  obtain ⟨entries, shown⟩ := exists_shownAs paired
  have few : places entries + 1 < 0x10000 := by
    rw [← shown.places, same]
    exact places_lt_of_fits fits
  have constants := yields_pool (shown.fits fit) few
  have shares := shown.shares
  -- What is read are other constants than those of the layout, but written in the same bytes.
  rw [poolBytes, ← shown.bytes, ← shown.places] at constants
  rw [same] at constants shares
  have read := constants.bind (yields _ shares) []
  rw [List.append_nil] at read
  rw [bytesWith_eq, parse_headBytes, read]
  rfl

/-- A string that is no text stops the reading of a class file, whether or not anything refers to
it. -/
theorem parse_unpaired {layout : Layout} {stored : List Stored} {place : Nat} (fits : layout.fits)
    (same : stored.map Stored.entry = layout.pool) (fit : ∀ constant ∈ stored, constant.fits)
    (unpaired : firstUnpaired 1 stored = some place) :
    ClassFile.parse (layout.bytesWith stored) = .error (.malformedString place) := by
  have few := places_lt_of_fits fits
  have places := fails_unpaired unpaired fit
  rw [same] at places
  have read := (fails_pool few places).bind (readBody layout.minorVersion layout.majorVersion)
    layout.bodyBytes []
  rw [List.append_nil] at read
  rw [bytesWith_eq, parse_headBytes, read]
  rfl

/-- **A class file is read unless some string is no text.** As long as every index that is read
denotes a constant of the right kind, strings that nothing refers to change nothing of what is read,
but one with an unpaired surrogate stops the reading, and the fault names the first one. -/
theorem parse_bytesWith {layout : Layout} (refers : layout.refers) (fits : layout.fits) :
    ∃ file, ClassFile.parse layout.bytes = .ok file ∧
      ∀ stored : List Stored, stored.map Stored.entry = layout.pool →
        (∀ constant ∈ stored, constant.fits) →
        ClassFile.parse (layout.bytesWith stored) = match firstUnpaired 1 stored with
          | none => .ok file
          | some place => .error (.malformedString place) := by
  obtain ⟨file, parsed⟩ := parse_paired refers fits
  refine ⟨file, ?_, fun stored same fit => ?_⟩
  · have entries : ∀ entry ∈ layout.pool, entry.fits := by
      simp only [Layout.fits, Bool.and_eq_true, List.all_eq_true] at fits
      exact fits.1.1.1.1.2
    rw [← bytesWith_shown]
    refine parsed _ ?_ ?_ (firstUnpaired_shown 1 layout.pool)
    · rw [List.map_map]
      exact List.map_id layout.pool
    · exact List.forall_mem_map.mpr entries
  · cases found : firstUnpaired 1 stored with
    | none => exact parsed stored same fit found
    | some place => exact parse_unpaired fits same fit found

/-- A marked class whose code uses a table, kept as a string that only the code refers to. -/
def tableLayout : Layout where
  minorVersion := 0
  majorVersion := 52
  pool := [
    .text "org/example/Lexer", .classRef 1, .text "java/lang/Object", .classRef 3,
    .link .string 0, .link .string 5, .text "RuntimeVisibleAnnotations",
    .text "Lorg/example/Tags;", .text "value", .text "lexer"]
  accessFlags := 0x21
  name := 2
  superName := 4
  interfaces := []
  fields := []
  methods := []
  attributes := [.known 7 [⟨8, [(9, .array [.scalar .string 10])]⟩]]

/-- The constants of the class with what is in its table. -/
def tableConstants (units : List UInt16) : List Stored :=
  tableLayout.pool.map fun entry => if entry = .link .string 0 then .hidden units else .shown entry

theorem parse_bytesWith_table : tableLayout.refers ∧ tableLayout.fits ∧ ∃ file,
    ClassFile.parse tableLayout.bytes = .ok file ∧
    ClassFile.parse (tableLayout.bytesWith (tableConstants [])) = .ok file ∧
    ClassFile.parse (tableLayout.bytesWith (tableConstants [0, 0xD83D, 0xDE00])) = .ok file ∧
    ClassFile.parse (tableLayout.bytesWith (tableConstants [0, 0xD83D])) =
      .error (.malformedString 5) := by
  have refers : tableLayout.refers := by decide +kernel
  have fits : tableLayout.fits := by decide +kernel
  obtain ⟨file, whole, parsed⟩ := parse_bytesWith refers fits
  exact ⟨refers, fits, file, whole,
    parsed (tableConstants []) (by decide +kernel) (by decide +kernel),
    parsed (tableConstants [0, 0xD83D, 0xDE00]) (by decide +kernel) (by decide +kernel),
    parsed (tableConstants [0, 0xD83D]) (by decide +kernel) (by decide +kernel)⟩

/-- One unpaired surrogate in the table, and the class is not read. -/
theorem not_forall_read : ¬ ∀ (layout : Layout) (stored : List Stored), layout.refers →
    layout.fits → stored.map Stored.entry = layout.pool → (∀ constant ∈ stored, constant.fits) →
    ∃ file, ClassFile.parse (layout.bytesWith stored) = .ok file := by
  intro read
  have refers : tableLayout.refers := by decide +kernel
  have fits : tableLayout.fits := by decide +kernel
  have same : (tableConstants [0xD800]).map Stored.entry = tableLayout.pool := by decide +kernel
  have fit : ∀ constant ∈ tableConstants [0xD800], constant.fits := by decide +kernel
  have unpaired : firstUnpaired 1 (tableConstants [0xD800]) = some 5 := by decide +kernel
  obtain ⟨file, parsed⟩ := read tableLayout (tableConstants [0xD800]) refers fits same fit
  rw [parse_unpaired fits same fit unpaired] at parsed
  cases parsed

end ExtensionCatalog.ClassFile.Layout
