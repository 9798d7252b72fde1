/-
**What a class file is read as depends on the constants that it refers to.**

Reading looks constants up, and only those that a class file refers to where it is read. So as long
as these are of the right kinds, a class file is read, and as the same thing with any pool that has
them: what else there is among the constants does not matter.

* `refers`: whether every index that is read denotes a constant of the right kind;
* `Shares`: a pool has all constants of a list that are told apart;
* `Accepts`: a reader yields one value on its bytes, with every pool that shares the constants;
* `Accepts.forall₂`: items in a row;
* `accepts_value`, `accepts_part`, `accepts_method`, `accepts_classAttribute`: the parts of a class
  file;
* `parse_headBytes`: a class file is its constants and what is behind them;
* `accepts_body`: **everything behind the constants of a class file**.
-/

import ExtensionCatalog.Proofs.ClassFile.Parse

namespace ExtensionCatalog.ClassFile.Layout

open ByteReader

/-! ### Indices that are read -/

section Refers

variable (pool : List Entry)

def hasText (index : UInt16) : Bool := (text? pool index).isSome

def hasClass (index : UInt16) : Bool := (className? pool index).isSome

/-- Whether an index denotes a constant that can be read as a value of a kind. -/
def Scalar.refers (index : UInt16) : Scalar → Bool
  | byte | char | short | int | boolean => (integer? pool index).isSome
  | long => match denoted? pool index with
    | some (.long _) => true
    | _ => false
  | float => match denoted? pool index with
    | some (.float _) => true
    | _ => false
  | double => match denoted? pool index with
    | some (.double _) => true
    | _ => false
  | string | classLiteral => hasText pool index

mutual

def Value.refers : Value → Bool
  | .scalar kind index => kind.refers pool index
  | .constant typeName constantName => hasText pool typeName && hasText pool constantName
  | .nested typeName elements => hasText pool typeName && elementsRefer elements
  | .array values => valuesRefer values

def elementsRefer : List (UInt16 × Value) → Bool
  | [] => true
  | (name, value) :: rest => hasText pool name && value.refers && elementsRefer rest

def valuesRefer : List Value → Bool
  | [] => true
  | value :: rest => value.refers && valuesRefer rest

end

def Mark.refers (mark : Mark) : Bool :=
  hasText pool mark.typeName && elementsRefer pool mark.elements

/-- Whether the attributes that are read are those of the given name, and refer to constants. -/
def Part.refers {α : Type} (name : String) (contentRefers : α → Bool) : Part α → Bool
  | known label content => text? pool label = some name && contentRefers content
  | other raw => match text? pool raw.label with
    | some label => label ≠ name
    | none => false

def Method.refers (method : Method) : Bool :=
  hasText pool method.name &&
    method.attributes.all (·.refers pool defaultAttribute (Value.refers pool))

end Refers

/-- Whether every index of a class file that is read denotes a constant of the right kind. -/
def refers (layout : Layout) : Bool :=
  hasClass layout.pool layout.name &&
  (layout.superName = 0 || hasClass layout.pool layout.superName) &&
  layout.interfaces.all (hasClass layout.pool) &&
  layout.fields.all (fun field => field.attributes.all fun raw => hasText layout.pool raw.label) &&
  layout.methods.all (Method.refers layout.pool) &&
  layout.attributes.all
    (·.refers layout.pool annotationsAttribute (·.all (Mark.refers layout.pool)))

variable {entries : List Entry}

/-! ### Readers that look constants up -/

/-- A reader yields one value on its bytes, with every pool that has the constants of a list. -/
def Accepts {α : Type} (entries : List Entry) (reader : ConstantPool → ByteReader α)
    (bytes : Bytes) : Prop :=
  ∃ value, ∀ constants, Shares entries constants → (reader constants).Yields bytes value

namespace Accepts

variable {α : Type} {reader : ConstantPool → ByteReader α}

/-- What a reader yields on each of several items. -/
theorem forall₂ {γ : Type} {write : γ → Bytes} {items : List γ}
    (each : ∀ item ∈ items, Accepts entries reader (write item)) :
    ∃ values, ∀ constants, Shares entries constants → List.Forall₂
      (fun item value => (reader constants).Yields (write item) value) items values := by
  induction items with
  | nil => exact ⟨[], fun _ _ => .nil⟩
  | cons item rest hypothesis =>
    obtain ⟨value, here⟩ := each item List.mem_cons_self
    obtain ⟨values, later⟩ := hypothesis fun other member =>
      each other (List.mem_cons_of_mem item member)
    exact ⟨value :: values, fun constants shares =>
      .cons (here constants shares) (later constants shares)⟩

/-- A reader on an input of its own. -/
theorem within {body : Bytes} (accepts : Accepts entries reader body) :
    Accepts entries (fun constants => within body (reader constants)) [] := by
  obtain ⟨value, yields⟩ := accepts
  exact ⟨value, fun constants shares => .within (yields constants shares)⟩

end Accepts

/-! ### Annotations -/

theorem accepts_scalar {kind : Scalar} {index : UInt16} (refers : kind.refers entries index)
    (depth : Nat) : Accepts entries (fun constants => readElementValue constants (depth + 1))
      (Value.scalar kind index).bytes := by
  have next := yields_two index
  rw [Value.bytes]
  cases kind with
  | byte | char | short | int | boolean =>
    obtain ⟨code, found⟩ := Option.isSome_iff_exists.mp refers
    exact ⟨_, fun constants shares => (yields_one _).bind
      (next.last (.known (shares.integer found) (.pure _)))⟩
  | long | float | double =>
    simp only [Scalar.refers] at refers
    split at refers
    case h_1 found =>
      exact ⟨_, fun constants shares => (yields_one _).bind
        (next.last (.known (shares _ _ found (by simp [Entry.constant])) (.pure _)))⟩
    case h_2 => cases refers
  | string | classLiteral =>
    obtain ⟨text, found⟩ := Option.isSome_iff_exists.mp refers
    exact ⟨_, fun constants shares => (yields_one _).bind
      (next.last (.known (shares.string found) (.pure _)))⟩

/-- An annotation whose elements are read. -/
theorem accepts_readMark {typeName : UInt16} {elements : List (UInt16 × Value)} {depth : Nat}
    (type : hasText entries typeName) (few : elements.length < 0x10000)
    (each : Accepts entries (fun constants => times elements.length (readElement constants depth))
      (elementsBytes elements)) :
    Accepts entries (fun constants => readMark constants (readElementValue constants depth))
      (Bytes.spell 2 typeName.toNat ++
        (Bytes.spell 2 elements.length ++ elementsBytes elements)) := by
  obtain ⟨descriptor, found⟩ := Option.isSome_iff_exists.mp type
  obtain ⟨values, yields⟩ := each
  exact ⟨_, fun constants shares =>
    yields_readMark (shares.string found) few (yields constants shares)⟩

mutual

/-- A value whose indices denote constants of the right kinds is read, if the reader may go as deep
as there are bytes. The recursion is that of reading values back. -/
theorem accepts_value : ∀ {value : Value} {depth : Nat}, value.refers entries → value.fits →
    value.bytes.length ≤ depth + 1 →
    Accepts entries (fun constants => readElementValue constants (depth + 1)) value.bytes
  | .scalar kind index, depth, refers, _, _ => by
    rw [Value.refers] at refers
    exact accepts_scalar refers depth
  | .constant typeName constantName, depth, refers, _, _ => by
    rw [Value.refers, Bool.and_eq_true] at refers
    obtain ⟨descriptor, type⟩ := Option.isSome_iff_exists.mp refers.1
    obtain ⟨name, constant⟩ := Option.isSome_iff_exists.mp refers.2
    rw [Value.bytes]
    exact ⟨_, fun constants shares => (yields_one _).bind ((yields_two typeName).bind
      ((yields_two constantName).last (.known (shares.string type)
        (.known (shares.string constant) (.pure _)))))⟩
  | .nested typeName elements, depth, refers, fits, deep => by
    rw [Value.refers, Bool.and_eq_true] at refers
    rw [length_nested] at deep
    rw [Value.fits, Bool.and_eq_true, decide_eq_true_eq] at fits
    obtain ⟨few, fit⟩ := fits
    obtain ⟨fewer, rfl⟩ : ∃ fewer, depth = fewer + 1 := ⟨depth - 1, by omega⟩
    have shorter : (elementsBytes elements).length ≤ fewer + 1 := by omega
    obtain ⟨mark, yields⟩ :=
      accepts_readMark refers.1 few (accepts_elements refers.2 fit shorter)
    rw [Value.bytes]
    exact ⟨_, fun constants shares => (yields_one _).bind ((yields constants shares).map _)⟩
  | .array values, depth, refers, fits, deep => by
    rw [Value.refers] at refers
    rw [length_array] at deep
    rw [Value.fits, Bool.and_eq_true, decide_eq_true_eq] at fits
    obtain ⟨few, fit⟩ := fits
    obtain ⟨fewer, rfl⟩ : ∃ fewer, depth = fewer + 1 := ⟨depth - 1, by omega⟩
    have shorter : (valuesBytes values).length ≤ fewer + 1 := by omega
    obtain ⟨meanings, yields⟩ := accepts_values refers fit shorter
    rw [Value.bytes]
    refine ⟨.array meanings, fun constants shares =>
      (yields_one _).bind ((yields_count few).bind ?_)⟩
    rw [Text.Utf16.toNat_unit _ few]
    exact (yields constants shares).map _

theorem accepts_elements : ∀ {elements : List (UInt16 × Value)} {depth : Nat},
    elementsRefer entries elements → elementsFit elements →
    (elementsBytes elements).length ≤ depth + 1 →
    Accepts entries (fun constants => times elements.length (readElement constants (depth + 1)))
      (elementsBytes elements)
  | [], depth, _, _, _ => ⟨[], fun _ _ => .pure []⟩
  | (name, value) :: rest, depth, refer, fits, deep => by
    rw [elementsRefer, Bool.and_eq_true, Bool.and_eq_true] at refer
    obtain ⟨⟨named, refers⟩, others⟩ := refer
    obtain ⟨label, text⟩ := Option.isSome_iff_exists.mp named
    rw [elementsFit, Bool.and_eq_true] at fits
    rw [elementsBytes, List.length_append, List.length_append] at deep
    have here : value.bytes.length ≤ depth + 1 := by omega
    have after : (elementsBytes rest).length ≤ depth + 1 := by omega
    obtain ⟨meaning, first⟩ := accepts_value refers fits.1 here
    obtain ⟨meanings, later⟩ := accepts_elements others fits.2 after
    refine ⟨(label, meaning) :: meanings, fun constants shares => ?_⟩
    have element : Yields (readElement constants (depth + 1))
        (Bytes.spell 2 name.toNat ++ value.bytes) (label, meaning) :=
      (yields_two name).bind (.known (shares.string text) ((first constants shares).map _))
    rw [elementsBytes]
    exact element.bind ((later constants shares).map _)

theorem accepts_values : ∀ {values : List Value} {depth : Nat},
    valuesRefer entries values → valuesFit values → (valuesBytes values).length ≤ depth + 1 →
    Accepts entries (fun constants => times values.length (readElementValue constants (depth + 1)))
      (valuesBytes values)
  | [], depth, _, _, _ => ⟨[], fun _ _ => .pure []⟩
  | value :: rest, depth, refer, fits, deep => by
    rw [valuesRefer, Bool.and_eq_true] at refer
    rw [valuesFit, Bool.and_eq_true] at fits
    rw [valuesBytes, List.length_append] at deep
    have here : value.bytes.length ≤ depth + 1 := by omega
    have after : (valuesBytes rest).length ≤ depth + 1 := by omega
    obtain ⟨meaning, first⟩ := accepts_value refer.1 fits.1 here
    obtain ⟨meanings, later⟩ := accepts_values refer.2 fits.2 after
    rw [valuesBytes]
    exact ⟨meaning :: meanings, fun constants shares =>
      (first constants shares).bind ((later constants shares).map _)⟩

end

theorem accepts_defaultValue {value : Value} (refers : value.refers entries) (fits : value.fits) :
    Accepts entries (fun constants => defaultValue constants value.bytes) [] := by
  obtain ⟨depth, long⟩ : ∃ depth, value.bytes.length = depth + 1 :=
    ⟨_, (Nat.succ_pred_eq_of_pos (length_bytes_pos value)).symm⟩
  simp only [defaultValue, long]
  exact .within (accepts_value refers fits (by omega))

theorem accepts_mark {mark : Mark} {depth : Nat} (refers : mark.refers entries) (fits : mark.fits)
    (deep : mark.bytes.length ≤ depth + 1) :
    Accepts entries (fun constants => readMark constants (readElementValue constants (depth + 1)))
      mark.bytes := by
  rw [Mark.refers, Bool.and_eq_true] at refers
  rw [Mark.fits, Bool.and_eq_true, decide_eq_true_eq] at fits
  rw [Mark.bytes, List.length_append, List.length_append] at deep
  exact accepts_readMark refers.1 fits.1 (accepts_elements refers.2 fits.2 (by omega))

theorem accepts_annotationList {marks : List Mark} (refer : marks.all (Mark.refers entries))
    (few : marks.length < 0x10000) (fit : marks.all Mark.fits) :
    Accepts entries (fun constants => annotationList constants (counted Mark.bytes marks)) [] := by
  rw [List.all_eq_true] at refer fit
  obtain ⟨depth, long⟩ : ∃ depth, (counted Mark.bytes marks).length = depth + 1 :=
    ⟨(marks.flatMap Mark.bytes).length + 1, by
      rw [counted, List.length_append, Bytes.length_spell]
      omega⟩
  have each : ∀ mark ∈ marks, Accepts entries
      (fun constants => readMark constants (readElementValue constants (depth + 1)))
      mark.bytes := by
    intro mark member
    obtain ⟨before, after, rfl⟩ := List.append_of_mem member
    simp only [counted, List.flatMap_append, List.flatMap_cons, List.length_append] at long
    exact accepts_mark (refer mark member) (fit mark member) (by omega)
  obtain ⟨meanings, yields⟩ := Accepts.forall₂ each
  refine ⟨meanings, fun constants shares => ?_⟩
  have whole := Yields.counted few (yields constants shares) (.pure meanings)
  simp only [bind_pure, List.append_nil] at whole
  simp only [annotationList, long]
  exact .within whole

/-! ### Attributes -/

/-- An attribute that is read if it has a certain name, and skipped otherwise. -/
theorem accepts_part {α γ : Type} {part : Part α} {name : String} {contentRefers : α → Bool}
    {write : α → Bytes} {contentFits : α → Bool} {blank : γ}
    (action : ConstantPool → Bytes → ByteReader γ)
    (refers : part.refers entries name contentRefers) (fits : part.fits write contentFits)
    (content : ∀ item, contentRefers item → contentFits item →
      Accepts entries (fun constants => action constants (write item)) []) :
    Accepts entries (fun constants => do
      let (label, body) ← readAttribute constants
      if label = name then action constants body else return blank) (part.raw write).bytes := by
  cases part with
  | known label item =>
    rw [Part.refers, Bool.and_eq_true, decide_eq_true_eq] at refers
    rw [Part.fits, Bool.and_eq_true] at fits
    obtain ⟨value, yields⟩ := content item refers.2 fits.2
    refine ⟨value, fun constants shares =>
      (yields_attribute (shares.string refers.1) fits.1).last ?_⟩
    show Yields (if name = name then _ else _) _ _
    rw [if_pos rfl]
    exact yields constants shares
  | other raw =>
    rw [Part.refers] at refers
    split at refers
    case h_1 label text =>
      rw [decide_eq_true_eq] at refers
      refine ⟨blank, fun constants shares =>
        (yields_attribute (shares.string text) fits).last ?_⟩
      show Yields (if label = name then _ else _) _ _
      rw [if_neg refers]
      exact .pure blank
    case h_2 => cases refers

theorem accepts_method {method : Method} (refers : method.refers entries) (fits : method.fits) :
    Accepts entries readMethod method.bytes := by
  rw [Method.refers, Bool.and_eq_true, List.all_eq_true] at refers
  rw [Method.fits, Bool.and_eq_true, decide_eq_true_eq, List.all_eq_true] at fits
  obtain ⟨named, refer⟩ := refers
  obtain ⟨few, fit⟩ := fits
  obtain ⟨name, text⟩ := Option.isSome_iff_exists.mp named
  have each : ∀ part ∈ method.attributes, Accepts entries (fun constants => do
      let (label, body) ← readAttribute constants
      if label = defaultAttribute then readDefault constants name body else return [])
      (part.raw Value.bytes).bytes := by
    intro part member
    refine accepts_part (readDefault · name) (refer part member) (fit part member) ?_
    intro value refers fits
    obtain ⟨meaning, yields⟩ := accepts_defaultValue refers fits
    exact ⟨_, fun constants shares => (yields constants shares).map _⟩
  obtain ⟨declared, yields⟩ := Accepts.forall₂ each
  rw [Method.bytes, ← List.append_nil (counted _ _)]
  exact ⟨declared.flatten, fun constants shares => (yields_two _).bind ((yields_two _).bind
    ((yields_two _).bind (.known (shares.string text)
      (.counted few (yields constants shares) (.pure _)))))⟩

theorem accepts_classAttribute {part : Part (List Mark)}
    (refers : part.refers entries annotationsAttribute (·.all (Mark.refers entries)))
    (fits : part.fits (counted Mark.bytes) fun marks =>
      marks.length < 0x10000 && marks.all Mark.fits) :
    Accepts entries readClassAttribute (part.raw (counted Mark.bytes)).bytes := by
  refine accepts_part annotationList refers fits fun marks refer fits => ?_
  rw [Bool.and_eq_true, decide_eq_true_eq] at fits
  exact accepts_annotationList refer fits.1 fits.2

/-! ### Classes -/

/-- The reader of everything behind the constants of a class file. -/
def readBody (minorVersion majorVersion : UInt16) (pool : ConstantPool) :
    ByteReader ClassFile := do
  let accessFlags ← two
  let name ← pool.className (← two)
  let superIndex ← two
  let superName ← if superIndex = 0 then pure none else some <$> pool.className superIndex
  let interfaceCount ← two
  let interfaces ← times interfaceCount.toNat do
    let index ← two
    pool.className index
  let fieldCount ← two
  let _ ← times fieldCount.toNat (readField pool)
  let methodCount ← two
  let defaults ← times methodCount.toNat (readMethod pool)
  let attributeCount ← two
  let annotations ← times attributeCount.toNat (readClassAttribute pool)
  return {
    minorVersion, majorVersion, accessFlags, name, superName, interfaces
    annotations := annotations.flatten
    defaults := .ofList defaults.flatten }

/-- The bytes in front of the constants of a class file. -/
def headBytes (minorVersion majorVersion : UInt16) : Bytes :=
  Bytes.spell 4 magic.toNat ++
    (Bytes.spell 2 minorVersion.toNat ++ Bytes.spell 2 majorVersion.toNat)

/-- A class file is its constants and what is behind them, as soon as it has its head. -/
theorem parse_headBytes (minorVersion majorVersion : UInt16) (input : Bytes) :
    ClassFile.parse (headBytes minorVersion majorVersion ++ input) =
      ((ConstantPool.read >>= readBody minorVersion majorVersion) input).map Prod.fst := by
  have split : ClassFile.read = (do
      if (← four) ≠ magic then throw .badMagic
      let minorVersion ← two
      let majorVersion ← two
      readBody minorVersion majorVersion (← ConstantPool.read)) := rfl
  rw [ClassFile.parse, split, headBytes, List.append_assoc, List.append_assoc,
    (yields_four magic).bind_apply, if_neg (not_not.mpr rfl)]
  beta_reduce
  rw [(yields_two _).bind_apply, (yields_two _).bind_apply]
  cases (ConstantPool.read >>= readBody minorVersion majorVersion) input <;> rfl

/-- The bytes behind the constants of a class file. -/
def bodyBytes (layout : Layout) : Bytes :=
  Bytes.spell 2 layout.accessFlags.toNat ++ (Bytes.spell 2 layout.name.toNat ++
    (Bytes.spell 2 layout.superName.toNat ++
    (counted (fun index => Bytes.spell 2 index.toNat) layout.interfaces ++
    (counted Field.bytes layout.fields ++ (counted Method.bytes layout.methods ++
    counted (fun part => (part.raw (counted Mark.bytes)).bytes) layout.attributes)))))

/-- The superclass is looked up unless its index is zero. -/
theorem accepts_superName {superName : UInt16}
    (named : superName = 0 ∨ hasClass entries superName) :
    Accepts entries (fun constants => if superName = 0 then pure none
      else some <$> liftM (constants.className superName)) [] := by
  by_cases zero : superName = 0
  · simp only [if_pos zero]
    exact ⟨none, fun _ _ => .pure none⟩
  · simp only [if_neg zero]
    obtain ⟨name, found⟩ := Option.isSome_iff_exists.mp (named.resolve_left zero)
    exact ⟨some name, fun constants shares => (Yields.lift (shares.className found)).map some⟩

/-- **What is behind the constants of a class file is read**, and as the same class with every pool
that has the constants it refers to. -/
theorem accepts_body {layout : Layout} (refers : layout.refers) (fits : layout.fits) :
    Accepts layout.pool (readBody layout.minorVersion layout.majorVersion) layout.bodyBytes := by
  simp only [Layout.fits, Bool.and_eq_true, decide_eq_true_eq, List.all_eq_true] at fits
  obtain ⟨⟨⟨⟨-, fewInterfaces⟩, fewFields, fields⟩, fewMethods, methods⟩,
    fewAttributes, attributes⟩ := fits
  simp only [Layout.refers, Bool.and_eq_true, Bool.or_eq_true, decide_eq_true_eq,
    List.all_eq_true] at refers
  obtain ⟨⟨⟨⟨⟨named, superNamed⟩, interfacesNamed⟩, labelled⟩, methodsRefer⟩,
    attributesRefer⟩ := refers
  obtain ⟨name, nameFound⟩ := Option.isSome_iff_exists.mp named
  obtain ⟨superName, yieldsSuper⟩ := accepts_superName superNamed
  have eachInterface : ∀ index ∈ layout.interfaces, Accepts layout.pool (fun constants => do
      let index ← two
      constants.className index) (Bytes.spell 2 index.toNat) := by
    intro index member
    obtain ⟨interface, found⟩ := Option.isSome_iff_exists.mp (interfacesNamed index member)
    exact ⟨interface, fun constants shares =>
      (yields_two index).last (.lift (shares.className found))⟩
  have eachField : ∀ field ∈ layout.fields, Accepts layout.pool readField (Field.bytes field) :=
    fun field member => ⟨(), fun constants shares =>
      yields_field (fields field member) fun raw inside =>
        (Option.isSome_iff_exists.mp (labelled field member raw inside)).imp
          fun _ => shares.string⟩
  have eachMethod : ∀ method ∈ layout.methods,
      Accepts layout.pool readMethod (Method.bytes method) :=
    fun method member => accepts_method (methodsRefer method member) (methods method member)
  have eachAttribute : ∀ part ∈ layout.attributes, Accepts layout.pool readClassAttribute
      (Part.raw (counted Mark.bytes) part).bytes :=
    fun part member => accepts_classAttribute (attributesRefer part member) (attributes part member)
  obtain ⟨interfaces, yieldsInterfaces⟩ := Accepts.forall₂ eachInterface
  obtain ⟨_, yieldsFields⟩ := Accepts.forall₂ eachField
  obtain ⟨defaults, yieldsMethods⟩ := Accepts.forall₂ eachMethod
  obtain ⟨annotations, yieldsAttributes⟩ := Accepts.forall₂ eachAttribute
  rw [bodyBytes, ← List.append_nil (counted (fun part => (Part.raw _ part).bytes) _)]
  exact ⟨_, fun constants shares => (yields_two _).bind ((yields_two _).bind
    (.known (shares.className nameFound) ((yields_two _).bind
      ((yieldsSuper constants shares).bind_ite
        (.counted fewInterfaces (yieldsInterfaces constants shares)
          (.counted fewFields (yieldsFields constants shares)
            (.counted fewMethods (yieldsMethods constants shares)
              (.counted fewAttributes (yieldsAttributes constants shares) (.pure _)))))))))⟩

end ExtensionCatalog.ClassFile.Layout
