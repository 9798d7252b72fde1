/-
**Readers that undo writing.**

A reader yields a value on some bytes if it takes exactly these bytes off its input, whatever comes
after them. This composes: readers in a row yield on their bytes in a row.

* `Bytes.bigEndian_spell`: numbers are read back from their bytes;
* `Yields`: the relation;
* `Yields.bind`, `Yields.map`, `Yields.known`, `Yields.within`, `Yields.times`, `Yields.counted`:
  how it composes;
* `yields_take`, `yields_one`, `yields_two`, `yields_four`, `yields_eight`: bytes and numbers;
* `Fails`: a reader fails on some bytes, whatever comes after them;
* `Ensures`: what every value of a reader has, whatever its input;
* `ClassFile.length_interfaces_lt`: a class has no more interfaces than can be counted.
-/

import ExtensionCatalog.Proofs.ClassFile.Layout
import ExtensionCatalog.Proofs.Outcome

namespace ExtensionCatalog

namespace Bytes

@[simp] theorem length_spell (width number : Nat) : (spell width number).length = width := by
  induction width generalizing number with
  | zero => rfl
  | succ width hypothesis => rw [spell, List.length_append, hypothesis]; rfl

/-- A number that fits is read back from its bytes. -/
theorem bigEndian_spell {width number : Nat} (fits : number < Nat.pow 256 width) :
    bigEndian (spell width number) = number := by
  induction width generalizing number with
  | zero =>
    have empty : number = 0 := Nat.lt_one_iff.mp fits
    rw [empty]
    rfl
  | succ width hypothesis =>
    have grown : Nat.pow 256 (width + 1) = Nat.pow 256 width * 0x100 := rfl
    have higher : number / 0x100 < Nat.pow 256 width := by omega
    have lowest : number.toUInt8.toNat = number % 0x100 := UInt8.toNat_ofNat'
    have single : bigEndian [number.toUInt8] = number % 0x100 := by
      rw [← lowest, bigEndian, List.foldl_cons, List.foldl_nil, Nat.zero_mul, Nat.zero_add]
    rw [spell, bigEndian_append, hypothesis higher, single]
    show number / 0x100 * 0x100 + number % 0x100 = number
    omega

end Bytes

/-- A reader takes these bytes off its input, whatever comes after them, and yields a value. -/
def ByteReader.Yields {α : Type} (reader : ByteReader α) (bytes : Bytes) (value : α) : Prop :=
  ∀ rest, reader (bytes ++ rest) = .ok (value, rest)

open ByteReader ClassFile.Layout

/-- A reader with its value changed, on some input. -/
theorem ByteReader.map_apply {α β : Type} (reader : ByteReader α) (change : α → β) (input : Bytes) :
    (reader >>= fun value => pure (change value)) input =
      (reader input).map fun (value, rest) => (change value, rest) := by
  show (reader input >>= fun (value, rest) => .ok (change value, rest)) = _
  cases reader input <;> rfl

namespace ByteReader.Yields

variable {α β : Type} {reader : ByteReader α} {next : α → ByteReader β} {early late bytes : Bytes}
  {first : α} {second : β}

theorem pure (value : α) : Yields (pure value) [] value := fun _ => rfl

/-- A reader before any other. -/
theorem bind_apply (yields : Yields reader early first) (next : α → ByteReader β) (rest : Bytes) :
    (reader >>= next) (early ++ rest) = next first rest := by
  show (reader (early ++ rest) >>= fun (value, rest) => next value rest) = _
  rw [yields]
  rfl

/-- Two readers in a row. -/
theorem bind (yields : Yields reader early first) (later : Yields (next first) late second) :
    Yields (reader >>= next) (early ++ late) second := fun rest => by
  rw [List.append_assoc, yields.bind_apply]
  exact later rest

/-- A reader before one that takes no bytes. -/
theorem last (yields : Yields reader bytes first) (later : Yields (next first) [] second) :
    Yields (reader >>= next) bytes second := by
  rw [← List.append_nil bytes]
  exact yields.bind later

/-- A reader with its value changed. -/
theorem map (yields : Yields reader bytes first) (change : α → β) :
    Yields (reader >>= fun value => Pure.pure (change value)) bytes (change first) :=
  yields.last (Yields.pure _)

/-- A lookup takes no bytes. -/
theorem lift {outcome : Except ClassFileFault α} (found : outcome = .ok first) :
    Yields (liftM outcome : ByteReader α) [] first := fun rest => by
  subst found
  rfl

/-- A lookup before another reader. -/
theorem known {outcome : Except ClassFileFault α} (found : outcome = .ok first)
    (later : Yields (next first) bytes second) :
    Yields ((liftM outcome : ByteReader α) >>= next) bytes second :=
  (lift found).bind later

/-- One of two readers before another one. -/
theorem bind_ite {condition : Prop} [Decidable condition] {yes no : ByteReader α}
    (yields : Yields (if condition then yes else no) early first)
    (later : Yields (next first) late second) :
    Yields (if condition then yes >>= next else no >>= next) (early ++ late) second := by
  split
  next holds =>
    rw [if_pos holds] at yields
    exact yields.bind later
  next fails =>
    rw [if_neg fails] at yields
    exact yields.bind later

/-- A reader on an input of its own. -/
theorem within (yields : Yields reader bytes first) : Yields (within bytes reader) [] first := by
  have alone : reader bytes = .ok (first, []) := by
    simpa only [List.append_nil] using yields []
  exact known alone (Yields.pure first)

/-- A reader used once for each of several items. -/
theorem times {γ : Type} {write : γ → Bytes} {items : List γ} {values : List α}
    (each : List.Forall₂ (fun item value => Yields reader (write item) value) items values) :
    Yields (times items.length reader) (items.flatMap write) values := by
  induction each with
  | nil => exact pure []
  | cons yields _ hypothesis =>
    rw [List.flatMap_cons]
    exact yields.bind (hypothesis.map _)

end ByteReader.Yields

/-! ### Bytes and numbers -/

theorem yields_take {count : Nat} {bytes : Bytes} (whole : bytes.length = count) :
    Yields (take count) bytes bytes := fun rest => by
  have taken : (bytes ++ rest).takeExact count = some (bytes, rest) :=
    Bytes.takeExact_eq_some_iff.mpr ⟨rfl, whole⟩
  rw [take, taken]

theorem yields_number {width number : Nat} (fits : number < Nat.pow 256 width) :
    Yields (ByteReader.number width) (Bytes.spell width number) number := by
  have read := (yields_take (Bytes.length_spell width number)).map Bytes.bigEndian
  rwa [Bytes.bigEndian_spell fits] at read

/-- A number that is read as a value of a type of its width. -/
theorem yields_of_eq {α : Type} {width number : Nat} {convert : Nat → α} {value : α}
    (fits : number < Nat.pow 256 width) (back : convert number = value) :
    Yields (do return convert (← ByteReader.number width)) (Bytes.spell width number) value := by
  subst back
  exact (yields_number fits).map convert

theorem yields_one (byte : UInt8) : Yields one [byte] byte := by
  have back : byte.toNat.toUInt8 = byte := UInt8.ofNat_toNat
  have spelled : Bytes.spell 1 byte.toNat = [byte] := by
    rw [Bytes.spell, Bytes.spell, List.nil_append, back]
  rw [← spelled]
  exact yields_of_eq byte.toNat_lt back

theorem yields_two (number : UInt16) : Yields two (Bytes.spell 2 number.toNat) number :=
  yields_of_eq number.toNat_lt UInt16.ofNat_toNat

theorem yields_four (number : UInt32) : Yields four (Bytes.spell 4 number.toNat) number :=
  yields_of_eq number.toNat_lt UInt32.ofNat_toNat

theorem yields_eight (number : UInt64) : Yields eight (Bytes.spell 8 number.toNat) number :=
  yields_of_eq number.toNat_lt UInt64.ofNat_toNat

/-- The number of items, led by which they are written. -/
theorem yields_count {count : Nat} (fits : count < 0x10000) :
    Yields two (Bytes.spell 2 count) count.toUInt16 :=
  yields_of_eq fits rfl

/-- The length of a body, before which it is written. -/
theorem yields_length {length : Nat} (fits : length < 0x100000000) :
    Yields four (Bytes.spell 4 length) length.toUInt32 :=
  yields_of_eq fits rfl

/-- A number of items and then the items. -/
theorem ByteReader.Yields.counted {α β γ : Type} {reader : ByteReader α}
    {next : List α → ByteReader β} {write : γ → Bytes} {items : List γ} {values : List α}
    {late : Bytes} {second : β} (fits : items.length < 0x10000)
    (each : List.Forall₂ (fun item value => Yields reader (write item) value) items values)
    (later : Yields (next values) late second) :
    Yields (two >>= fun count => ByteReader.times count.toNat reader >>= next)
      (ClassFile.Layout.counted write items ++ late) second := by
  have small : items.length.toUInt16.toNat = items.length :=
    Text.Utf16.toNat_unit items.length fits
  rw [ClassFile.Layout.counted, List.append_assoc]
  refine (yields_count fits).bind ?_
  rw [small]
  exact (Yields.times each).bind later

/-! ### Readers that fail -/

/-- A reader fails on these bytes, whatever comes after them. -/
def ByteReader.Fails {α : Type} (reader : ByteReader α) (bytes : Bytes)
    (fault : ClassFileFault) : Prop :=
  ∀ rest, reader (bytes ++ rest) = .error fault

namespace ByteReader

variable {α β : Type} {reader : ByteReader α} {next : α → ByteReader β} {early late : Bytes}
  {value : α} {fault : ClassFileFault}

theorem Fails.throw : Fails (throw fault : ByteReader α) [] fault := fun _ => rfl

/-- What comes after a reader that fails is not read. -/
theorem Fails.bind (fails : Fails reader early fault) (next : α → ByteReader β) (late : Bytes) :
    Fails (reader >>= next) (early ++ late) fault := fun rest => by
  show (reader (early ++ late ++ rest) >>= fun (value, rest) => next value rest) = _
  rw [List.append_assoc, fails]
  rfl

/-- A reader that fails after another one. -/
theorem Yields.fails (yields : Yields reader early value) (later : Fails (next value) late fault) :
    Fails (reader >>= next) (early ++ late) fault := fun rest => by
  rw [List.append_assoc, yields.bind_apply]
  exact later rest

/-- A reader before one that fails without any bytes. -/
theorem Yields.last_fails (yields : Yields reader early value)
    (later : Fails (next value) [] fault) : Fails (reader >>= next) early fault := by
  rw [← List.append_nil early]
  exact yields.fails later

end ByteReader

/-! ### What every value has -/

/-- Every value that a reader yields has a property. -/
def ByteReader.Ensures {α : Type} (reader : ByteReader α) (holds : α → Prop) : Prop :=
  ∀ input value rest, reader input = .ok (value, rest) → holds value

namespace ByteReader.Ensures

variable {α β : Type} {reader : ByteReader α} {next : α → ByteReader β} {early : α → Prop}
  {holds : β → Prop}

theorem pure {value : β} (here : holds value) : Ensures (pure value) holds := by
  intro input value rest read
  cases read
  exact here

theorem throw (fault : ClassFileFault) : Ensures (throw fault) holds := by
  intro input value rest read
  cases read

/-- Two readers in a row. -/
theorem bind (first : Ensures reader early)
    (later : ∀ value, early value → Ensures (next value) holds) :
    Ensures (reader >>= next) holds := by
  intro input value rest read
  change (reader input >>= fun (value, rest) => next value rest) = _ at read
  cases found : reader input with
  | error fault =>
    rw [found] at read
    cases read
  | ok result =>
    rw [found] at read
    exact later result.1 (first _ _ _ found) _ _ _ read

/-- A reader after any other. -/
theorem after (later : ∀ value, Ensures (next value) holds) :
    Ensures (reader >>= next) holds := by
  have anything : Ensures reader fun _ => True := fun _ _ _ _ => trivial
  exact anything.bind fun value _ => later value

/-- One of two readers before another one. -/
theorem bind_ite {condition : Prop} [Decidable condition] {yes no : ByteReader α}
    (later : ∀ value, Ensures (next value) holds) :
    Ensures (if condition then yes >>= next else no >>= next) holds := by
  split <;> exact after later

/-- A reader that is used some times yields as many values. -/
theorem times (count : Nat) (reader : ByteReader α) :
    Ensures (times count reader) fun values => values.length = count := by
  induction count with
  | zero => exact pure rfl
  | succ count hypothesis =>
    refine after fun first => hypothesis.bind fun others counted => pure ?_
    rw [List.length_cons, counted]

end ByteReader.Ensures

/-- A class names fewer interfaces than two bytes can count. -/
theorem ClassFile.length_interfaces_lt {bytes : Bytes} {file : ClassFile}
    (parsed : ClassFile.parse bytes = .ok file) : file.interfaces.length < 0x10000 := by
  have ensures : Ensures ClassFile.read fun file => file.interfaces.length < 0x10000 := by
    unfold ClassFile.read
    refine .after fun magic => ?_
    split
    · exact .bind (.throw _) fun _ => False.elim
    refine .after fun minorVersion => .after fun majorVersion => .after fun pool =>
      .after fun accessFlags => .after fun nameIndex => .after fun name =>
      .after fun superIndex => .bind_ite fun superName => .after fun interfaceCount => ?_
    refine (Ensures.times _ _).bind fun interfaces counted => ?_
    refine .after fun fieldCount => .after fun _ => .after fun methodCount =>
      .after fun defaults => .after fun attributeCount => .after fun annotations => .pure ?_
    rw [counted]
    exact interfaceCount.toNat_lt
  obtain ⟨result, read, equal⟩ := Outcome.bind_eq_ok_iff.mp parsed
  cases equal
  exact ensures _ _ _ read

end ExtensionCatalog
