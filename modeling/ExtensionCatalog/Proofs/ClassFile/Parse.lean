/-
**Reading class files back.**

* `yields_attribute`, `yields_field`: what is skipped is skipped exactly, whatever is in it;
* `yields_part`: attributes among which some are read;
* `yields_method`, `yields_classAttribute`: default values and annotations;
* `yields_read`: a whole class file, whatever comes after it;
* `parse_bytes`: **parsing undoes the layout of a class file**.
-/

import ExtensionCatalog.Proofs.ClassFile.Values

namespace ExtensionCatalog.ClassFile.Layout

open ByteReader

variable {pool : List Entry}

/-- What a mapping gives for each item of a list. -/
theorem forall₂_of_mapM {α β : Type} {action : α → Option β} {holds : α → β → Prop}
    {items : List α} {values : List β} (mapped : items.mapM action = some values)
    (each : ∀ item ∈ items, ∀ value, action item = some value → holds item value) :
    List.Forall₂ holds items values := by
  induction items generalizing values with
  | nil =>
    cases mapped
    exact .nil
  | cons item rest hypothesis =>
    rw [List.mapM_cons] at mapped
    obtain ⟨value, here, remaining⟩ := Option.bind_eq_some_iff.mp mapped
    obtain ⟨others, later, ⟨⟩⟩ := Option.bind_eq_some_iff.mp remaining
    exact .cons (each item (.head _) value here)
      (hypothesis later fun other member => each other (.tail _ member))

/-! ### Attributes -/

theorem yields_attribute {constants : ConstantPool} {raw : Attribute} {label : String}
    (text : constants.string raw.label = .ok label) (fits : raw.fits) :
    Yields (readAttribute constants) raw.bytes (label, raw.body) := by
  have short : raw.body.length < 0x100000000 := by simpa [Attribute.fits] using fits
  have small : raw.body.length.toUInt32.toNat = raw.body.length := by
    simpa [Nat.toUInt32] using Nat.mod_eq_of_lt short
  exact (yields_two raw.label).bind ((yields_length short).bind (.known text
    ((yields_take small.symm).map _)))

/-- A field is skipped, whatever is in its attributes. -/
theorem yields_field {constants : ConstantPool} {field : Field} (fits : field.fits)
    (named : ∀ raw ∈ field.attributes, ∃ label, constants.string raw.label = .ok label) :
    Yields (readField constants) field.bytes () := by
  rw [Field.fits, Bool.and_eq_true, decide_eq_true_eq, List.all_eq_true] at fits
  obtain ⟨few, fit⟩ := fits
  choose! label text using named
  have each : List.Forall₂
      (fun raw content => Yields (readAttribute constants) (Attribute.bytes raw) content)
      field.attributes (field.attributes.map fun raw => (label raw, raw.body)) :=
    List.forall₂_map_right_iff.mpr (List.forall₂_same.mpr fun raw member =>
      yields_attribute (text raw member) (fit raw member))
  -- The flags and the two indices of a field are skipped as six bytes.
  have head : (Bytes.spell 2 field.accessFlags.toNat ++ (Bytes.spell 2 field.name.toNat ++
      Bytes.spell 2 field.descriptor.toNat)).length = 6 := by
    simp only [List.length_append, Bytes.length_spell]
  rw [Field.bytes, ← List.append_assoc (Bytes.spell 2 field.name.toNat), ← List.append_assoc,
    ← List.append_nil (counted _ _)]
  exact (yields_take head).bind (.counted few each (.pure ()))

/-- An attribute that is read if it has a certain name, and skipped otherwise. -/
theorem yields_part {α β γ : Type} {part : Part α} {name : String} {read : α → Option β}
    {write : α → Bytes} {contentFits : α → Bool} {told : List β} {blank : γ}
    (action : Bytes → ByteReader γ) (collect : List β → γ) (nothing : collect [] = blank)
    (denotes : part.denotes? pool name read = some told)
    (fits : part.fits write contentFits)
    (content : ∀ item meaning, read item = some meaning → contentFits item →
      Yields (action (write item)) [] (collect [meaning])) :
    Yields (do
      let (label, body) ← readAttribute (held pool)
      if label = name then action body else return blank)
      (part.raw write).bytes (collect told) := by
  cases part with
  | known label item =>
    rw [Part.denotes?] at denotes
    obtain ⟨text, found⟩ := Option.ite_none_right_eq_some.mp denotes
    obtain ⟨meaning, here, rfl⟩ := Option.map_eq_some_iff.mp found
    rw [Part.fits, Bool.and_eq_true] at fits
    refine (yields_attribute (string_held text) fits.1).last ?_
    show Yields (if name = name then _ else _) _ _
    rw [if_pos rfl]
    exact content item meaning here fits.2
  | other raw =>
    rw [Part.denotes?] at denotes
    split at denotes
    case h_1 label text =>
      obtain ⟨different, ⟨⟩⟩ := Option.ite_none_left_eq_some.mp denotes
      refine (yields_attribute (string_held text) fits).last ?_
      show Yields (if label = name then _ else _) _ _
      rw [if_neg different, nothing]
      exact .pure blank
    case h_2 => cases denotes

/-! ### Methods and class attributes -/

/-- The reader of a default value, which is kept with the name of its element. -/
def readDefault (pool : ConstantPool) (name : String) (body : Bytes) :
    ByteReader (List (String × ElementValue)) := do
  return [(name, ← defaultValue pool body)]

theorem yields_method {method : Method} {declared : List (String × ElementValue)}
    (denotes : method.denotes? pool = some declared) (fits : method.fits) :
    Yields (readMethod (held pool)) method.bytes declared := by
  obtain ⟨name, text, rest⟩ := Option.bind_eq_some_iff.mp denotes
  obtain ⟨values, mapped, ⟨⟩⟩ := Option.bind_eq_some_iff.mp rest
  rw [Method.fits, Bool.and_eq_true, decide_eq_true_eq, List.all_eq_true] at fits
  obtain ⟨few, fit⟩ := fits
  have each : List.Forall₂ (fun part defaults => Yields (do
      let (label, body) ← readAttribute (held pool)
      if label = defaultAttribute then readDefault (held pool) name body else return [])
      (part.raw Value.bytes).bytes defaults)
      method.attributes (values.map (·.map (name, ·))) :=
    List.forall₂_map_right_iff.mpr (forall₂_of_mapM mapped fun part member told denotes =>
      yields_part (readDefault (held pool) name) (·.map (name, ·)) rfl denotes (fit part member)
        fun value meaning denotes fits => (yields_defaultValue denotes fits).map _)
  rw [Method.bytes, ← List.append_nil (counted _ _), List.map_flatten]
  exact (yields_two _).bind ((yields_two _).bind ((yields_two _).bind
    (.known (string_held text) (.counted few each (.pure _)))))

/-- Several annotations that make up the body of an attribute are read as what they say. -/
theorem yields_annotationList {marks : List Mark} {meanings : List Annotation}
    (denote : marks.mapM (Mark.denotes? pool) = some meanings) (few : marks.length < 0x10000)
    (fit : marks.all Mark.fits) :
    Yields (annotationList (held pool) (counted Mark.bytes marks)) [] meanings := by
  rw [List.all_eq_true] at fit
  obtain ⟨depth, long⟩ : ∃ depth, (counted Mark.bytes marks).length = depth + 1 :=
    ⟨(marks.flatMap Mark.bytes).length + 1, by
      rw [counted, List.length_append, Bytes.length_spell]
      omega⟩
  have each : List.Forall₂ (fun mark meaning =>
      Yields (readMark (held pool) (readElementValue (held pool) (depth + 1))) mark.bytes meaning)
      marks meanings :=
    forall₂_of_mapM denote fun mark member meaning denotes => by
      obtain ⟨before, after, rfl⟩ := List.append_of_mem member
      simp only [counted, List.flatMap_append, List.flatMap_cons, List.length_append] at long
      exact yields_mark denotes (fit mark member) (by omega)
  rw [annotationList, long]
  have whole := Yields.counted few each (.pure meanings)
  simp only [bind_pure, List.append_nil] at whole
  exact .within whole

theorem yields_classAttribute {part : Part (List Mark)} {told : List (List Annotation)}
    (denotes : part.denotes? pool annotationsAttribute (·.mapM (Mark.denotes? pool)) = some told)
    (fits : part.fits (counted Mark.bytes) fun marks =>
      marks.length < 0x10000 && marks.all Mark.fits) :
    Yields (readClassAttribute (held pool)) (part.raw (counted Mark.bytes)).bytes told.flatten :=
  yields_part (annotationList (held pool)) List.flatten rfl denotes fits
    fun marks meanings denote fits => by
      rw [Bool.and_eq_true, decide_eq_true_eq] at fits
      rw [List.flatten_singleton]
      exact yields_annotationList denote fits.1 fits.2

/-! ### Classes -/

/-- What describes a layout is built of what is read. -/
theorem Describes.eq_mk {layout : Layout} {file : ClassFile} (describes : layout.Describes file)
    {annotations : List Annotation} {pairs : List (String × ElementValue)}
    (marks : file.annotations = annotations)
    (defaults : ∀ element, file.defaults.find? element =
      (pairs.reverse.find? (·.1 = element)).map (·.2)) :
    file = {
      minorVersion := layout.minorVersion
      majorVersion := layout.majorVersion
      accessFlags := layout.accessFlags
      name := file.name
      superName := file.superName
      interfaces := file.interfaces
      annotations
      defaults := .ofList pairs } := by
  have same : file.defaults = .ofList pairs := SortedMap.ext_find? fun element => by
    rw [defaults, SortedMap.find?_ofList]
  rw [← describes.minorVersion, ← describes.majorVersion, ← describes.accessFlags, ← marks, ← same]

/-- The superclass is looked up unless its index is zero. -/
theorem yields_superName {layout : Layout} {file : ClassFile}
    (describes : layout.Describes file) :
    Yields (if layout.superName = 0 then pure none
      else some <$> liftM ((held layout.pool).className layout.superName)) [] file.superName := by
  have described := describes.superName
  split at described
  next zero =>
    rw [if_pos zero, described]
    exact .pure none
  next nonzero =>
    obtain ⟨name, found, described⟩ := described
    rw [if_neg nonzero, described]
    exact (Yields.lift (className_held found)).map some

/-- A class file is read as what it says, whatever comes after it. -/
theorem yields_read {layout : Layout} {file : ClassFile} (describes : layout.Describes file)
    (fits : layout.fits) : Yields ClassFile.read layout.bytes file := by
  simp only [Layout.fits, Bool.and_eq_true, decide_eq_true_eq, List.all_eq_true] at fits
  obtain ⟨⟨⟨⟨⟨fewPlaces, entries⟩, fewInterfaces⟩, fewFields, fields⟩, fewMethods, methods⟩,
    fewAttributes, attributes⟩ := fits
  obtain ⟨groups, marked, annotations⟩ := describes.annotations
  obtain ⟨declared, given, defaults⟩ := describes.defaults
  have eachInterface : List.Forall₂ (fun index name => Yields (do
      let index ← two
      (held layout.pool).className index) (Bytes.spell 2 index.toNat) name)
      layout.interfaces file.interfaces :=
    forall₂_of_mapM describes.interfaces fun index _ _ found =>
      (yields_two index).last (.lift (className_held found))
  have eachField : List.Forall₂ (fun field result =>
      Yields (readField (held layout.pool)) (Field.bytes field) result)
      layout.fields (layout.fields.map fun _ => ()) :=
    List.forall₂_map_right_iff.mpr (List.forall₂_same.mpr fun field member =>
      yields_field (fields field member) fun raw inside =>
        (Option.isSome_iff_exists.mp (describes.fields field member raw inside)).imp
          fun _ => string_held)
  have eachMethod : List.Forall₂ (fun method defaults =>
      Yields (readMethod (held layout.pool)) (Method.bytes method) defaults)
      layout.methods declared :=
    forall₂_of_mapM given fun method member _ denotes =>
      yields_method denotes (methods method member)
  have eachAttribute : List.Forall₂ (fun part marks =>
      Yields (readClassAttribute (held layout.pool))
        (Part.raw (counted Mark.bytes) part).bytes marks)
      layout.attributes (groups.map List.flatten) :=
    List.forall₂_map_right_iff.mpr (forall₂_of_mapM marked fun part member _ denotes =>
      yields_classAttribute denotes (attributes part member))
  -- The parts yield what they say, so the whole does, rule by rule along the bytes.
  rw [List.flatten_flatten] at annotations
  rw [Layout.bytes, describes.eq_mk annotations defaults,
    ← List.append_nil (counted (fun part => (Part.raw _ part).bytes) _)]
  refine (yields_four magic).bind ?_
  rw [if_neg (not_not.mpr rfl)]
  refine (yields_two _).bind ((yields_two _).bind ((yields_pool entries fewPlaces).bind
    ((yields_two _).bind ((yields_two _).bind (.known (className_held describes.name)
      ((yields_two _).bind ?_))))))
  exact (yields_superName describes).bind_ite (.counted fewInterfaces eachInterface
    (.counted fewFields eachField (.counted fewMethods eachMethod
      (.counted fewAttributes eachAttribute (.pure _)))))

/-- **Parsing undoes the layout of a class file.** Whatever constants there are and in whatever
order, and however values are nested, a class file whose counts and lengths fit is parsed as exactly
what it says. -/
theorem parse_bytes {layout : Layout} {file : ClassFile} (describes : layout.Describes file)
    (fits : layout.fits) : ClassFile.parse layout.bytes = .ok file := by
  have read := yields_read describes fits []
  rw [List.append_nil] at read
  rw [ClassFile.parse, read]
  rfl

/-- An annotation type with a default value, a marked field and annotations in two attributes. Its
constants are of all kinds, some of two places and one with characters beyond plain UTF-8. -/
def limitLayout : Layout where
  minorVersion := 3
  majorVersion := 52
  pool := [
    .text "org/example/Limit", .classRef 1, .text "java/lang/Object", .classRef 3,
    .long (-7), .text "RuntimeVisibleAnnotations", .text "AnnotationDefault",
    .text "Lorg/example/Mark;", .text "value", .integer (-1), .integer 0x41,
    .double 0x3FF0000000000000, .float 0x3F800000, .text "a\x00😀", .integer 1,
    .text "Synthetic", .link .string 1, .join .nameAndType 1 9, .methodHandle 5 1]
  accessFlags := 0x2600
  name := 2
  superName := 4
  interfaces := [2, 4]
  fields := [⟨0, 0xFFFF, 0, [⟨18, []⟩, ⟨7, [1, 2, 3]⟩]⟩]
  methods := [⟨0x401, 10, 0, [.other ⟨18, [0]⟩, .known 8 (.array [.scalar .byte 11,
    .scalar .short 11, .scalar .int 11, .scalar .char 12, .scalar .boolean 17, .scalar .long 5,
    .scalar .double 13, .scalar .float 15])]⟩, ⟨0x401, 3, 0, []⟩]
  attributes := [
    .known 7 [⟨9, []⟩, ⟨9, [(10, .nested 9 [(10, .array []), (3, .scalar .string 16)])]⟩],
    .other ⟨8, [0xFF]⟩,
    .known 7 [⟨10, [(10, .constant 9 10), (1, .scalar .classLiteral 9)]⟩]]

/-- What the annotation type says. -/
def limitFile : ClassFile where
  minorVersion := 3
  majorVersion := 52
  accessFlags := 0x2600
  name := "org.example.Limit"
  superName := some "java.lang.Object"
  interfaces := ["org.example.Limit", "java.lang.Object"]
  annotations := [
    ⟨"org.example.Mark", []⟩,
    ⟨"org.example.Mark", [("value", .nested "org.example.Mark"
      [("value", .array []), ("java/lang/Object", .string "a\x00😀")])]⟩,
    ⟨"value", [("value", .constant "org.example.Mark" "value"),
      ("org/example/Limit", .classLiteral "org.example.Mark")]⟩]
  defaults := .ofList [("value", .array [.byte (-1), .short (-1), .int (-1), .char 'A',
    .boolean true, .long (-7), .double 0x3FF0000000000000, .float 0x3F800000])]

theorem parse_bytes_limit : limitLayout.Describes limitFile ∧ limitLayout.fits ∧
    ClassFile.parse limitLayout.bytes = .ok limitFile := by
  have describes : limitLayout.Describes limitFile :=
    { minorVersion := rfl
      majorVersion := rfl
      accessFlags := rfl
      name := by decide +kernel
      superName := ⟨"java.lang.Object", by decide +kernel, rfl⟩
      interfaces := by decide +kernel
      fields := by decide +kernel
      annotations := ⟨_, by rfl, rfl⟩
      defaults := ⟨_, by rfl, SortedMap.find?_ofList _⟩ }
  have fits : limitLayout.fits := by decide +kernel
  exact ⟨describes, fits, parse_bytes describes fits⟩

end ExtensionCatalog.ClassFile.Layout
