/-
**Reading annotations back.**

Values are nested in each other to any depth. A value has at least three bytes before the values in
it, so a reader that may go as deep as there are bytes always goes deep enough.

* `yields_scalar`: values that are one constant;
* `yields_value`: values of every kind, by recursion on the value;
* `yields_mark`: annotations.
-/

import ExtensionCatalog.Proofs.ClassFile.Pool

namespace ExtensionCatalog.ClassFile.Layout

open ByteReader

variable {pool : List Entry}

/-! ### Single constants -/

/-- The code of a character that is no surrogate is read as that character. -/
theorem characterOf_eq {code : Int32}
    (plain : 0 ≤ code ∧ code < 0xD800 ∨ 0xE000 ≤ code ∧ code ≤ 0xFFFF) :
    characterOf code = Char.ofNat code.toInt.toNat := by
  have signed : code.toInt = if 2 * code.toUInt32.toNat < 0x100000000 then
      (code.toUInt32.toNat : Int) else (code.toUInt32.toNat : Int) - (0x100000000 : Nat) :=
    BitVec.toInt_eq_toNat_cond code.toBitVec
  have bounded := code.toUInt32.toNat_lt
  simp only [Int32.le_iff_toInt_le, Int32.lt_iff_toInt_lt, Int32.reduceToInt] at plain
  have same : code.toInt.toNat = code.toUInt32.toNat := by
    split at signed <;> omega
  have valid : code.toUInt32.toNat.isValidChar := by
    simp only [Nat.isValidChar]
    omega
  rw [characterOf, if_pos valid, same]

/-- A truth value is read as whether its integer is not zero. -/
theorem boolean_eq_of_denotes {index : UInt16} {value : ElementValue}
    (denotes : Scalar.boolean.denotes? pool index = some value) :
    ∃ code, integer? pool index = some code ∧ value = .boolean (code != 0) := by
  obtain ⟨code, found, ranged⟩ := Option.bind_eq_some_iff.mp denotes
  refine ⟨code, found, ?_⟩
  split at ranged
  next zero =>
    cases ranged
    rw [zero]
    rfl
  next =>
    obtain ⟨one, ⟨⟩⟩ := Option.ite_none_right_eq_some.mp ranged
    rw [one]
    rfl

/-- A constant is read as what it says as a value of its kind. -/
theorem yields_scalar {kind : Scalar} {index : UInt16} {value : ElementValue}
    (denotes : kind.denotes? pool index = some value) (depth : Nat) :
    Yields (readElementValue (held pool) (depth + 1)) (Value.scalar kind index).bytes value := by
  -- Five kinds differ only in what they make of an integer.
  have next := yields_two index
  have integer {code : Int32} (found : integer? pool index = some code)
      (change : Int32 → ElementValue) : Yields (do
        let index ← two
        let code ← (held pool).integer index
        return change code) (Bytes.spell 2 index.toNat) (change code) :=
    next.last (.known (integer_held found) (.pure _))
  rw [Value.bytes]
  cases kind with
  | byte | short =>
    obtain ⟨code, found, ranged⟩ := Option.bind_eq_some_iff.mp denotes
    obtain ⟨-, ⟨⟩⟩ := Option.ite_none_right_eq_some.mp ranged
    exact (yields_one _).bind (integer found _)
  | char =>
    obtain ⟨code, found, ranged⟩ := Option.bind_eq_some_iff.mp denotes
    obtain ⟨plain, ⟨⟩⟩ := Option.ite_none_right_eq_some.mp ranged
    rw [← characterOf_eq plain]
    exact (yields_one _).bind (integer found fun code => .char (characterOf code))
  | int =>
    obtain ⟨code, found, rfl⟩ := Option.map_eq_some_iff.mp denotes
    exact (yields_one _).bind (integer found _)
  | boolean =>
    obtain ⟨code, found, rfl⟩ := boolean_eq_of_denotes denotes
    exact (yields_one _).bind (integer found fun code => .boolean (code != 0))
  | long | float | double =>
    simp only [Scalar.denotes?] at denotes
    split at denotes
    case h_1 found =>
      cases denotes
      exact (yields_one _).bind (next.last (.known (constant_held found) (.pure _)))
    case h_2 => cases denotes
  | string | classLiteral =>
    obtain ⟨text, found, rfl⟩ := Option.map_eq_some_iff.mp denotes
    exact (yields_one _).bind (next.last (.known (string_held found) (.pure _)))

/-! ### Values in values -/

theorem length_nested (typeName : UInt16) (elements : List (UInt16 × Value)) :
    (Value.nested typeName elements).bytes.length = (elementsBytes elements).length + 5 := by
  simp only [Value.bytes, List.length_append, Bytes.length_spell, List.length_singleton]
  omega

theorem length_array (values : List Value) :
    (Value.array values).bytes.length = (valuesBytes values).length + 3 := by
  simp only [Value.bytes, List.length_append, Bytes.length_spell, List.length_singleton]
  omega

theorem length_bytes_pos (value : Value) : 0 < value.bytes.length := by
  cases value <;> simp [Value.bytes]

/-- The reader of one element of an annotation. -/
def readElement (pool : ConstantPool) (depth : Nat) : ByteReader (String × ElementValue) := do
  let name ← pool.string (← two)
  return (name, ← readElementValue pool depth)

/-- An annotation, whether it stands alone or is a value, is read by its type and elements. -/
theorem yields_readMark {constants : ConstantPool} {typeName : UInt16} {descriptor : String}
    {elements : List (UInt16 × Value)} {meanings : List (String × ElementValue)} {depth : Nat}
    (type : constants.string typeName = .ok descriptor) (few : elements.length < 0x10000)
    (each : Yields (times elements.length (readElement constants depth))
      (elementsBytes elements) meanings) :
    Yields (readMark constants (readElementValue constants depth))
      (Bytes.spell 2 typeName.toNat ++
        (Bytes.spell 2 elements.length ++ elementsBytes elements))
      ⟨ClassName.descriptorName descriptor, meanings⟩ := by
  refine (yields_two typeName).bind (.known type ((yields_count few).bind ?_))
  rw [Text.Utf16.toNat_unit _ few]
  exact each.map _

mutual

/-- A value is read as what it says, if the reader may go as deep as there are bytes. The recursion
is on the value; the depth left for the values in it is still their number of bytes. -/
theorem yields_value : ∀ {value : Value} {meaning : ElementValue} {depth : Nat},
    value.denotes? pool = some meaning → value.fits → value.bytes.length ≤ depth + 1 →
    Yields (readElementValue (held pool) (depth + 1)) value.bytes meaning
  | .scalar kind index, meaning, depth, denotes, _, _ => by
    rw [Value.denotes?] at denotes
    exact yields_scalar denotes depth
  | .constant typeName constantName, meaning, depth, denotes, _, _ => by
    rw [Value.denotes?] at denotes
    obtain ⟨descriptor, type, rest⟩ := Option.bind_eq_some_iff.mp denotes
    obtain ⟨name, constant, ⟨⟩⟩ := Option.bind_eq_some_iff.mp rest
    rw [Value.bytes]
    exact (yields_one _).bind ((yields_two typeName).bind ((yields_two constantName).last
      (.known (string_held type) (.known (string_held constant) (.pure _)))))
  | .nested typeName elements, meaning, depth, denotes, fits, deep => by
    rw [Value.denotes?] at denotes
    obtain ⟨descriptor, type, rest⟩ := Option.bind_eq_some_iff.mp denotes
    obtain ⟨meanings, denote, ⟨⟩⟩ := Option.bind_eq_some_iff.mp rest
    rw [length_nested] at deep
    rw [Value.fits, Bool.and_eq_true, decide_eq_true_eq] at fits
    obtain ⟨few, fit⟩ := fits
    obtain ⟨fewer, rfl⟩ : ∃ fewer, depth = fewer + 1 := ⟨depth - 1, by omega⟩
    have shorter : (elementsBytes elements).length ≤ fewer + 1 := by omega
    have each := yields_elements denote fit shorter
    rw [Value.bytes]
    exact (yields_one _).bind ((yields_readMark (string_held type) few each).map _)
  | .array values, meaning, depth, denotes, fits, deep => by
    rw [Value.denotes?] at denotes
    obtain ⟨meanings, denote, ⟨⟩⟩ := Option.bind_eq_some_iff.mp denotes
    rw [length_array] at deep
    rw [Value.fits, Bool.and_eq_true, decide_eq_true_eq] at fits
    obtain ⟨few, fit⟩ := fits
    obtain ⟨fewer, rfl⟩ : ∃ fewer, depth = fewer + 1 := ⟨depth - 1, by omega⟩
    have shorter : (valuesBytes values).length ≤ fewer + 1 := by omega
    have each := yields_values denote fit shorter
    rw [Value.bytes]
    refine (yields_one _).bind ((yields_count few).bind ?_)
    rw [Text.Utf16.toNat_unit _ few]
    exact each.map _

theorem yields_elements : ∀ {elements : List (UInt16 × Value)}
    {meanings : List (String × ElementValue)} {depth : Nat},
    elementsDenote? pool elements = some meanings → elementsFit elements →
    (elementsBytes elements).length ≤ depth + 1 →
    Yields (times elements.length (readElement (held pool) (depth + 1)))
      (elementsBytes elements) meanings
  | [], meanings, depth, denote, _, _ => by
    rw [elementsDenote?] at denote
    cases denote
    exact .pure []
  | (name, value) :: rest, meanings, depth, denote, fits, deep => by
    rw [elementsDenote?] at denote
    obtain ⟨label, text, remaining⟩ := Option.bind_eq_some_iff.mp denote
    obtain ⟨meaning, denotes, remaining⟩ := Option.bind_eq_some_iff.mp remaining
    obtain ⟨others, later, ⟨⟩⟩ := Option.bind_eq_some_iff.mp remaining
    rw [elementsFit, Bool.and_eq_true] at fits
    rw [elementsBytes, List.length_append, List.length_append] at deep
    have here : value.bytes.length ≤ depth + 1 := by omega
    have after : (elementsBytes rest).length ≤ depth + 1 := by omega
    have first := yields_value denotes fits.1 here
    have element : Yields (readElement (held pool) (depth + 1))
        (Bytes.spell 2 name.toNat ++ value.bytes) (label, meaning) :=
      (yields_two name).bind (.known (string_held text) (first.map _))
    rw [elementsBytes]
    exact element.bind ((yields_elements later fits.2 after).map _)

theorem yields_values : ∀ {values : List Value} {meanings : List ElementValue} {depth : Nat},
    valuesDenote? pool values = some meanings → valuesFit values →
    (valuesBytes values).length ≤ depth + 1 →
    Yields (times values.length (readElementValue (held pool) (depth + 1)))
      (valuesBytes values) meanings
  | [], meanings, depth, denote, _, _ => by
    rw [valuesDenote?] at denote
    cases denote
    exact .pure []
  | value :: rest, meanings, depth, denote, fits, deep => by
    rw [valuesDenote?] at denote
    obtain ⟨meaning, denotes, remaining⟩ := Option.bind_eq_some_iff.mp denote
    obtain ⟨others, later, ⟨⟩⟩ := Option.bind_eq_some_iff.mp remaining
    rw [valuesFit, Bool.and_eq_true] at fits
    rw [valuesBytes, List.length_append] at deep
    have here : value.bytes.length ≤ depth + 1 := by omega
    have after : (valuesBytes rest).length ≤ depth + 1 := by omega
    rw [valuesBytes]
    exact (yields_value denotes fits.1 here).bind ((yields_values later fits.2 after).map _)

end

/-- A default value that makes up a body is read as what it says. -/
theorem yields_defaultValue {value : Value} {meaning : ElementValue}
    (denotes : value.denotes? pool = some meaning) (fits : value.fits) :
    Yields (defaultValue (held pool) value.bytes) [] meaning := by
  obtain ⟨depth, long⟩ : ∃ depth, value.bytes.length = depth + 1 :=
    ⟨_, (Nat.succ_pred_eq_of_pos (length_bytes_pos value)).symm⟩
  rw [defaultValue, long]
  exact .within (yields_value denotes fits (by omega))

/-- An annotation is read as what it says, if the reader may go as deep as there are bytes. -/
theorem yields_mark {mark : Mark} {meaning : Annotation} {depth : Nat}
    (denotes : mark.denotes? pool = some meaning) (fits : mark.fits)
    (deep : mark.bytes.length ≤ depth + 1) :
    Yields (readMark (held pool) (readElementValue (held pool) (depth + 1))) mark.bytes
      meaning := by
  obtain ⟨descriptor, type, rest⟩ := Option.bind_eq_some_iff.mp denotes
  obtain ⟨meanings, denote, ⟨⟩⟩ := Option.bind_eq_some_iff.mp rest
  rw [Mark.fits, Bool.and_eq_true, decide_eq_true_eq] at fits
  rw [Mark.bytes, List.length_append, List.length_append] at deep
  exact yields_readMark (string_held type) fits.1 (yields_elements denote fits.2 (by omega))

end ExtensionCatalog.ClassFile.Layout
