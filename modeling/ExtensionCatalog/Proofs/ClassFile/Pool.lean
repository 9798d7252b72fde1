/-
**Reading a constant pool back.**

* `stringBytes`, `yields_string`, `fails_string`: a string of any bytes is read if these are some
  text;
* `Entry.constant`, `yields_constant`: a constant is read as what is kept of it;
* `readPlaces_of_yields`, `readPlaces_of_fails`, `yields_places`: constants are read one after the
  other, until one is not read;
* `held`: the constants by index, and `yields_pool`: a pool is read as these;
* `Shares`: a pool has all constants of a list that are told apart;
* `constant_held`, `string_held`, `integer_held`, `className_held`: looking up an index that
  denotes a constant finds that constant.
-/

import ExtensionCatalog.Proofs.ClassFile.ModifiedUtf8
import ExtensionCatalog.Proofs.ClassFile.Reading

namespace ExtensionCatalog.ClassFile.Layout

open ByteReader

/-! ### Single constants -/

/-- The bytes of a string constant with a body of any bytes. -/
def stringBytes (body : Bytes) : Bytes := [1] ++ (Bytes.spell 2 body.length ++ body)

section

variable {body : Bytes} (short : body.length < 0x10000)

include short

theorem yields_string {text : List Char} (decoded : ModifiedUtf8.decode? body = some text)
    (index : Nat) :
    Yields (ConstantPool.readConstant index) (stringBytes body) (.string (String.ofList text)) := by
  have small := Text.Utf16.toNat_unit _ short
  refine (yields_one 1).bind ((yields_count short).bind ((yields_take small.symm).last ?_))
  rw [decoded]
  exact .pure _

theorem fails_string (undecoded : ModifiedUtf8.decode? body = none) (index : Nat) :
    Fails (ConstantPool.readConstant index) (stringBytes body) (.malformedString index) := by
  have small := Text.Utf16.toNat_unit _ short
  refine (yields_one 1).fails ((yields_count short).fails ((yields_take small.symm).last_fails ?_))
  rw [undecoded]
  exact .throw

end

/-- What is kept of a constant. -/
def Entry.constant : Entry → Constant
  | text value => .string value
  | integer value => .integer value
  | float bits => .float bits
  | long value => .long value
  | double bits => .double bits
  | classRef name => .classRef name
  | link _ _ => .other
  | join _ _ _ => .other
  | methodHandle _ _ => .other

/-- A constant is read as what is kept of it. -/
theorem yields_constant {entry : Entry} (fits : entry.fits) (index : Nat) :
    Yields (ConstantPool.readConstant index) entry.bytes entry.constant := by
  cases entry with
  | text value =>
    have short : (ModifiedUtf8.encode value.toList).length < 0x10000 := by
      simpa [Entry.fits] using fits
    have read := yields_string short (ModifiedUtf8.decode?_encode value.toList) index
    rwa [String.ofList_toList] at read
  | integer value => exact (yields_one 3).bind ((yields_four value.toUInt32).map _)
  | float bits => exact (yields_one 4).bind ((yields_four bits).map _)
  | long value => exact (yields_one 5).bind ((yields_eight value.toUInt64).map _)
  | double bits => exact (yields_one 6).bind ((yields_eight bits).map _)
  | classRef name => exact (yields_one 7).bind ((yields_two name).map _)
  | link kind index =>
    have skipped := yields_take (Bytes.length_spell 2 index.toNat)
    cases kind <;> exact (yields_one _).bind (skipped.map _)
  | join kind first second =>
    have long : (Bytes.spell 2 first.toNat ++ Bytes.spell 2 second.toNat).length = 4 := by
      rw [List.length_append, Bytes.length_spell, Bytes.length_spell]
    have skipped := yields_take long
    cases kind <;> exact (yields_one _).bind (skipped.map _)
  | methodHandle kind reference =>
    have long : ([kind] ++ Bytes.spell 2 reference.toNat).length = 3 := by
      rw [List.length_append, Bytes.length_spell]
      rfl
    exact (yields_one 15).bind ((yields_take long).map _)

/-! ### Places -/

/-- The number of places that a constant takes when it is read. -/
def width (constant : Constant) : Nat := if constant.isWide then 2 else 1

/-- What the places of a constant hold. -/
def filled (constant : Constant) : List (Option Constant) :=
  some constant :: if constant.isWide then [none] else []

/-- What the places of constants hold. -/
def slots : List Entry → List (Option Constant)
  | [] => []
  | entry :: rest =>
    some entry.constant :: (if entry.constant.isWide then none :: slots rest else slots rest)

theorem slots_cons (entry : Entry) (rest : List Entry) :
    slots (entry :: rest) = filled entry.constant ++ slots rest := by
  rw [slots, filled]
  split <;> rfl

/-- Exactly the constants of two places are wide. -/
theorem Entry.places_eq (entry : Entry) : entry.places = width entry.constant := by
  cases entry <;> rfl

section

variable {bytes : Bytes} {index : Nat}

/-- Reading constants reads one constant and goes on behind the places that it takes. -/
theorem readPlaces_of_yields {constant : Constant}
    (yields : Yields (ConstantPool.readConstant index) bytes constant) (fewer : Nat)
    (input : Bytes) :
    ConstantPool.readPlaces (width constant + fewer) index (bytes ++ input) =
      (ConstantPool.readPlaces fewer (index + width constant) input).map
        fun (later, rest) => (filled constant ++ later, rest) := by
  have first := yields input
  rw [filled]
  by_cases wide : constant.isWide
  · have count : width constant = 2 := if_pos wide
    rw [count, Nat.add_comm 2 fewer, if_pos wide, ConstantPool.readPlaces.eq_def]
    show (ConstantPool.readConstant index (bytes ++ input) >>= _) = _
    rw [first]
    show (if constant.isWide then _ else _ : ByteReader (List (Option Constant))) input = _
    rw [if_pos wide]
    exact map_apply _ _ input
  · have count : width constant = 1 := if_neg wide
    rw [count, Nat.add_comm 1 fewer, if_neg wide, ConstantPool.readPlaces.eq_def]
    show (ConstantPool.readConstant index (bytes ++ input) >>= _) = _
    rw [first]
    show (if constant.isWide then _ else _ : ByteReader (List (Option Constant))) input = _
    rw [if_neg wide]
    exact map_apply _ _ input

/-- A constant that is not read stops the reading of constants. -/
theorem readPlaces_of_fails {fault : ClassFileFault}
    (fails : Fails (ConstantPool.readConstant index) bytes fault) (fewer : Nat) (late : Bytes) :
    Fails (ConstantPool.readPlaces (fewer + 1) index) (bytes ++ late) fault := by
  rw [ConstantPool.readPlaces.eq_def]
  exact fails.bind _ _

end

/-- Constants are read one after the other, for all the places that they take. -/
theorem yields_places {pool : List Entry} (fits : ∀ entry ∈ pool, entry.fits) (index : Nat) :
    Yields (ConstantPool.readPlaces (places pool) index) (pool.flatMap Entry.bytes)
      (slots pool) := by
  induction pool generalizing index with
  | nil => exact .pure []
  | cons entry rest hypothesis =>
    rw [List.forall_mem_cons] at fits
    intro input
    rw [List.flatMap_cons, List.append_assoc, places, Entry.places_eq,
      readPlaces_of_yields (yields_constant fits.1 index), hypothesis fits.2,
      slots_cons entry rest]
    rfl

/-- A place where a constant begins holds that constant. -/
theorem slots_getElem? {pool : List Entry} {place : Nat} {entry : Entry}
    (here : entryAt? pool place = some entry) : (slots pool)[place]? = some entry.constant := by
  induction pool generalizing place with
  | nil => simp [entryAt?] at here
  | cons head rest hypothesis =>
    cases place with
    | zero =>
      cases here
      rfl
    | succ place =>
      rw [entryAt?] at here
      split at here
      · cases here
      next past =>
        have later := hypothesis here
        rw [Entry.places_eq, width] at past later
        rw [slots, List.getElem?_cons_succ]
        by_cases wide : head.constant.isWide
        · rw [if_pos wide] at past later ⊢
          obtain ⟨fewer, rfl⟩ : ∃ fewer, place = fewer + 1 := ⟨place - 1, by omega⟩
          exact later
        · rw [if_neg wide] at past later ⊢
          exact later

/-! ### Whole pools -/

/-- The constants by index, as they are read. -/
def held (pool : List Entry) : ConstantPool := (none :: slots pool).toArray

/-- A pool is read as its constants by index. -/
theorem yields_pool {pool : List Entry} (fits : ∀ entry ∈ pool, entry.fits)
    (small : places pool + 1 < 0x10000) :
    Yields ConstantPool.read (poolBytes pool) (held pool) := by
  refine (yields_count small).bind ?_
  rw [Text.Utf16.toNat_unit _ small]
  exact (yields_places fits 1).map _

/-- A constant that is not read stops the reading of a pool. -/
theorem fails_pool {count : Nat} {bytes : Bytes} {fault : ClassFileFault}
    (small : count + 1 < 0x10000) (fails : Fails (ConstantPool.readPlaces count 1) bytes fault) :
    Fails ConstantPool.read (Bytes.spell 2 (count + 1) ++ bytes) fault := by
  refine (yields_count small).fails ?_
  rw [Text.Utf16.toNat_unit _ small, ← List.append_nil bytes]
  exact fails.bind _ _

section Lookup

variable {pool : List Entry} {index : UInt16}

theorem constant_held {entry : Entry} (here : denoted? pool index = some entry) :
    (held pool).constant index = .ok entry.constant := by
  rw [denoted?] at here
  split at here
  · cases here
  next positive =>
    have some_place : index.toNat = index.toNat - 1 + 1 := by
      have : index.toNat ≠ 0 := fun zero => positive (UInt16.toNat_inj.mp zero)
      omega
    have found : (held pool)[index.toNat]? = some (some entry.constant) := by
      rw [held, List.getElem?_toArray, some_place, List.getElem?_cons_succ]
      exact slots_getElem? here
    rw [ConstantPool.constant, found]

end Lookup

/-! ### Constants that pools share -/

/-- A pool has the constants of a list, but for those whose kinds are not told apart. -/
def Shares (pool : List Entry) (constants : ConstantPool) : Prop :=
  ∀ index entry, denoted? pool index = some entry → entry.constant ≠ .other →
    constants.constant index = .ok entry.constant

theorem shares_held (pool : List Entry) : Shares pool (held pool) :=
  fun _ _ here _ => constant_held here

namespace Shares

variable {pool : List Entry} {constants : ConstantPool} (shares : Shares pool constants)
  {index : UInt16}

include shares

theorem string {text : String} (here : text? pool index = some text) :
    constants.string index = .ok text := by
  rw [text?] at here
  split at here
  case h_1 value found =>
    cases here
    rw [ConstantPool.string, shares index _ found (by simp [Entry.constant])]
    rfl
  case h_2 => cases here

theorem integer {code : Int32} (here : integer? pool index = some code) :
    constants.integer index = .ok code := by
  rw [integer?] at here
  split at here
  case h_1 value found =>
    cases here
    rw [ConstantPool.integer, shares index _ found (by simp [Entry.constant])]
    rfl
  case h_2 => cases here

theorem className {name : String} (here : className? pool index = some name) :
    constants.className index = .ok name := by
  rw [className?] at here
  split at here
  case h_1 reference found =>
    obtain ⟨internal, text, rfl⟩ := Option.map_eq_some_iff.mp here
    rw [ConstantPool.className, shares index _ found (by simp [Entry.constant])]
    show (do return ClassName.binaryName (← constants.string reference)) = _
    rw [shares.string text]
    rfl
  case h_2 => cases here

end Shares

section Held

variable {pool : List Entry} {index : UInt16}

theorem string_held {text : String} (here : text? pool index = some text) :
    (held pool).string index = .ok text := (shares_held pool).string here

theorem integer_held {code : Int32} (here : integer? pool index = some code) :
    (held pool).integer index = .ok code := (shares_held pool).integer here

theorem className_held {name : String} (here : className? pool index = some name) :
    (held pool).className index = .ok name := (shares_held pool).className here

end Held

end ExtensionCatalog.ClassFile.Layout
