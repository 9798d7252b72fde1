/-
**What the restrictions of an extension say.**

The entries of the marker of restricted extensions say which permission they are about and why.
An extension's restrictions are what they say, with one explanation for each permission: of several
entries about one permission the last one counts, and where they disagree, the others are lost.

* `ElementIs`: the value of an element, be it stated or a default;
* `Identifies`: the identifier of a permission;
* `EntrySays`: what an entry says of which permission;
* `entrySays_of_restrictionOf`: entries are read as what they say;
* `extract_restrictions`: **which restrictions an extracted definition has**.
-/

import ExtensionCatalog.Proofs.Extraction.Restrictions

namespace ExtensionCatalog

/-! ### Permissions -/

namespace DiscoverySettings

variable {settings : DiscoverySettings}

/-- A letter of an identifier that is made of the name of a constant. -/
def dashed (c : Char) : Char := if c = '_' then '-' else c.toLower

/-- The identifier of the permission that a value stands for: for a constant the configured one, or
else its name in lower case with dashes, and for a string the string. -/
inductive Identifies (settings : DiscoverySettings) : ElementValue → String → Prop
  | configured {typeName constantName identifier : String}
      (found : settings.permissions.find? constantName = some identifier) :
      Identifies settings (.constant typeName constantName) identifier
  | derived {typeName constantName : String}
      (absent : settings.permissions.find? constantName = none) :
      Identifies settings (.constant typeName constantName)
        (String.ofList (constantName.toList.map dashed))
  | given (identifier : String) : Identifies settings (.string identifier) identifier

theorem identifies_permissionIdentifier (typeName constantName : String) :
    settings.Identifies (.constant typeName constantName)
      (settings.permissionIdentifier constantName) := by
  rw [permissionIdentifier]
  split
  case h_1 identifier found => exact .configured found
  case h_2 absent =>
    have letters : ((Text.asciiLowercase constantName).toList.map fun c =>
        if c = '_' then '-' else c) = constantName.toList.map dashed := by
      rw [Text.asciiLowercase, String.toList_ofList, List.map_map]
      refine List.map_congr_left fun c _ => ?_
      have noLetter : '_'.isAlpha = false := rfl
      simp only [Function.comp_apply, dashed, Text.toLower_eq_iff noLetter]
    rw [letters]
    exact .derived absent

end DiscoverySettings

theorem ElementValue.eq_nested {value : ElementValue} {mark : Annotation}
    (nested : value.nested? = some mark) : value = .nested mark.typeName mark.elements := by
  cases value <;> cases nested
  rfl

namespace Marker

variable {marker : Marker} {element : String}

/-- A text is the value of its element, if there is one. -/
theorem text?_eq_ok_iff {text : Option String} :
    marker.text? element = .ok text ↔ marker.value? element = text.map .string := by
  rw [text?]
  split
  case h_1 missing => cases text <;> simp [missing]
  case h_2 value stated => cases text <;> simp [stated]
  case h_3 other notText stated =>
    cases text with
    | none => simp [stated]
    | some text =>
      simp only [stated, reduceCtorEq, Option.map_some, Option.some.injEq, false_iff]
      exact notText text

/-- Items are the value of their element, or none if there is no value. -/
theorem items_eq_ok {items : List ElementValue} (listed : marker.items element = .ok items) :
    marker.value? element = some (.array items) ∨ marker.value? element = none ∧ items = [] := by
  rw [Marker.items] at listed
  split at listed
  case h_1 missing =>
    cases listed
    exact .inr ⟨missing, rfl⟩
  case h_2 values stated =>
    cases listed
    exact .inl stated
  case h_3 => cases listed

end Marker

namespace Survey

variable {survey : Survey} {loaded : LoadedClass} {extensionType : ExtensionType}

/-! ### Elements -/

/-- The value that an element of an annotation has for a class: the stated one, or else the default
that the type of the annotation declares, as the level that defines the class sees it. -/
def ElementIs (survey : Survey) (loaded : LoadedClass) (mark : Annotation) (element : String)
    (value : Option ElementValue) : Prop :=
  ∃ type, (survey.context.loadFrom survey.tree loaded.definedBy mark.typeName).outcome = .ok type ∧
    (mark.find? element).or (type.file.defaults.find? element) = value

/-- The elements of a marker have the values that it answers. -/
theorem elementIs_of_view {mark : Annotation} {marker : Marker}
    (viewed : (Marker.view survey.context survey.tree loaded.definedBy loaded.name mark).outcome =
      .ok marker) (element : String) :
    survey.ElementIs loaded mark element (marker.value? element) := by
  simp only [Marker.view, Logged.outcome_bind, Outcome.bind_eq_ok_iff] at viewed
  obtain ⟨type, known, viewed⟩ := viewed
  split at viewed
  · cases viewed
    exact ⟨type, known, rfl⟩
  · cases viewed

/-- A stated value is the value. -/
theorem ElementIs.eq_of_stated {mark : Annotation} {element : String} {value : ElementValue}
    {answer : Option ElementValue} (elementIs : survey.ElementIs loaded mark element answer)
    (stated : mark.find? element = some value) : answer = some value := by
  obtain ⟨type, -, rfl⟩ := elementIs
  rw [stated, Option.some_or]

/-! ### Entries -/

/-- The permission that an entry of the marker is about, and its explanation, which is empty if it
is missing. -/
inductive EntrySays (survey : Survey) (loaded : LoadedClass) :
    ElementValue → String × String → Prop
  | intro {elements : List (String × ElementValue)} {permission : ElementValue}
      {identifier : String} {explanation : Option String}
      (about : survey.ElementIs loaded ⟨survey.settings.markers.restriction, elements⟩
        "requiredPermission" (some permission))
      (identified : survey.settings.Identifies permission identifier)
      (explained : survey.ElementIs loaded ⟨survey.settings.markers.restriction, elements⟩
        "explanation" (explanation.map .string)) :
      EntrySays survey loaded (.nested survey.settings.markers.restriction elements)
        (identifier, explanation.getD "")

/-- The permission of a restriction is what its element stands for. -/
theorem identifies_of_permissionOf {restriction : Marker} {identifier : String}
    (found : survey.permissionOf restriction = .ok identifier) : ∃ permission,
      restriction.value? "requiredPermission" = some permission ∧
        survey.settings.Identifies permission identifier := by
  rw [permissionOf] at found
  split at found
  case h_1 typeName constantName stated =>
    cases found
    exact ⟨_, stated, DiscoverySettings.identifies_permissionIdentifier typeName constantName⟩
  case h_2 stated =>
    cases found
    exact ⟨_, stated, .given identifier⟩
  case h_3 => cases found
  case h_4 => cases found

/-- Entries are read as what they say. -/
theorem entrySays_of_restrictionOf {restricted : Marker} {entry : ElementValue}
    {pair : String × String}
    (made : (survey.restrictionOf loaded restricted entry).outcome = .ok pair) :
    survey.EntrySays loaded entry pair := by
  rw [restrictionOf] at made
  split at made
  case h_1 => cases made
  case h_2 mark nested =>
    split at made
    next => cases made
    next type =>
      simp only [Logged.outcome_bind, Outcome.bind_eq_ok_iff] at made
      obtain ⟨restriction, viewed, explanation, stated, identifier, found, whole⟩ := made
      cases whole
      obtain ⟨permission, about, identified⟩ := identifies_of_permissionOf found
      have about := about ▸ elementIs_of_view viewed "requiredPermission"
      have explained := Marker.text?_eq_ok_iff.mp stated ▸ elementIs_of_view viewed "explanation"
      obtain ⟨typeName, elements⟩ := mark
      obtain rfl : typeName = survey.settings.markers.restriction := by simpa using type
      rw [ElementValue.eq_nested nested]
      exact .intro about identified explained

/-- The entries of the marker: the items of its element, and none if that has no value. -/
def HasEntries (survey : Survey) (loaded : LoadedClass) (mark : Annotation)
    (entries : List ElementValue) : Prop :=
  survey.ElementIs loaded mark "restrictions" (some (.array entries)) ∨
    survey.ElementIs loaded mark "restrictions" none ∧ entries = []

/-! ### Extracted definitions -/

/-- The marker of a class is that of its annotation. -/
theorem view_of_marker? {typeName : String} {mark : Annotation} {marker : Option Marker}
    (carried : loaded.file.annotation? typeName = some mark)
    (found : (survey.marker? loaded typeName).outcome = .ok marker) : ∃ viewed,
      (Marker.view survey.context survey.tree loaded.definedBy loaded.name mark).outcome =
        .ok viewed ∧ marker = some viewed := by
  rw [marker?, Marker.find?, carried] at found
  simp only [Logged.outcome_bind, Outcome.bind_eq_ok_iff] at found
  obtain ⟨viewed, view, whole⟩ := found
  cases whole
  exact ⟨viewed, view, rfl⟩

/-- **The restrictions of an extension are what the entries of its marker say**, be they stated or
the default, but of several entries about one permission only the last one counts: an entry is kept
exactly if no later one has its identifier. So where entries about one permission agree, none is
lost. -/
theorem extract_restrictions {mark : Annotation} {definition : Definition}
    (carried : loaded.file.annotation? survey.settings.markers.restricted = some mark)
    (extracted : (survey.extract loaded extensionType).outcome = .ok definition) :
    ∃ entries pairs restrictions, survey.HasEntries loaded mark entries ∧
      List.Forall₂ (survey.EntrySays loaded) entries pairs ∧
      definition.restrictions = some restrictions ∧
      (∀ restriction, restriction ∈ restrictions.restrictions ↔ ∃ before behind,
        pairs = before ++ (restriction.identifier, restriction.explanation) :: behind ∧
          ∀ pair ∈ behind, pair.1 ≠ restriction.identifier) ∧
      ((∀ identifier explanation other, (identifier, explanation) ∈ pairs →
          (identifier, other) ∈ pairs → explanation = other) →
        ∀ restriction, restriction ∈ restrictions.restrictions ↔
          (restriction.identifier, restriction.explanation) ∈ pairs) := by
  obtain ⟨-, -, -, -, made, -⟩ := extract_eq_ok_iff.mp extracted
  obtain ⟨marker, found, made⟩ := restrictions_eq_ok_iff.mp made
  obtain ⟨restricted, viewed, rfl⟩ := view_of_marker? carried found
  obtain ⟨general, entries, pairs, -, listed, each, whole⟩ := made
  have explained : Restrictions.of? (some (general.getD "")) (.ofList pairs) ≠ none := by
    simp [Restrictions.of?_eq_none_iff]
  obtain ⟨restrictions, collected⟩ := Option.ne_none_iff_exists'.mp explained
  refine ⟨entries, pairs, restrictions, ?entries, ?each, whole.trans collected, ?last, ?all⟩
  case entries =>
    have elementIs := elementIs_of_view viewed "restrictions"
    rcases Marker.items_eq_ok listed with stated | ⟨missing, rfl⟩
    · exact .inl (stated ▸ elementIs)
    · exact .inr ⟨missing ▸ elementIs, rfl⟩
  case each =>
    exact (Outcome.mapM_eq_ok_iff.mp each).imp fun _ _ => entrySays_of_restrictionOf
  case last =>
    intro restriction
    rw [Restrictions.mem_of? collected, SortedMap.find?_ofList_eq_some_iff_last]
  case all =>
    intro agree restriction
    rw [Restrictions.mem_of? collected, SortedMap.find?_ofList_eq_some_iff agree]

/-- The class file of an annotation type `E` without elements. -/
def restrictionClass : Bytes :=
  ClassFile.Layout.bytes {
    minorVersion := 0, majorVersion := 52, pool := [.text "E", .classRef 1]
    accessFlags := ClassFile.annotationFlag, name := 2, superName := 0, interfaces := []
    fields := [], methods := [], attributes := [] }

/-- A directory with the annotation types `D` of restricted extensions and `E` of their entries. -/
def entriesSurvey : Survey where
  context := restrictedSurvey.context
  tree := {
    entries := .ofList [(["lib"], .directory), (["lib", "D.class"], .file bareMarkerClass),
      (["lib", "E.class"], .file restrictionClass)]
    workingDirectory := [] }
  settings := { markers := { restricted := "D", restriction := "E" } }

/-- An entry about a permission, with an explanation. -/
def explainedEntry (identifier explanation : String) : ElementValue :=
  .nested "E" [("requiredPermission", .string identifier), ("explanation", .string explanation)]

/-- A marker with two entries about one permission, and one about another without an
explanation. -/
def repeatedMark : Annotation :=
  ⟨"D", [("restrictions", .array [explainedEntry "p" "x",
    .nested "E" [("requiredPermission", .constant "P" "READ_FILE")], explainedEntry "p" "y"])]⟩

/-- A class with the marker. -/
def repeatedClass : LoadedClass :=
  ⟨⟨0, 0⟩, {
    minorVersion := 0, majorVersion := 52, accessFlags := 1, name := "A", superName := none
    interfaces := [], annotations := [repeatedMark], defaults := ∅ }⟩

/-- The definition of the class, without the first of the two entries. -/
def repeatedDefinition : Definition :=
  ⟨.processor, "A", none, ∅, some ⟨some "", .ofList [⟨"p", "y"⟩, ⟨"read-file", ""⟩]⟩, ∅⟩

theorem annotation?_repeatedClass : repeatedClass.file.annotation? "D" = some repeatedMark := rfl

theorem extract_repeatedClass :
    (entriesSurvey.extract repeatedClass .processor).outcome = .ok repeatedDefinition :=
  Outcome.eq_ok_of_toOption (by decide +kernel)

/-- The second of two explanations is kept, and the default of a missing one is empty. -/
theorem extract_restrictions_repeated :
    repeatedClass.file.annotation? "D" = some repeatedMark ∧
    (entriesSurvey.extract repeatedClass .processor).outcome = .ok repeatedDefinition ∧
    ∃ entries pairs restrictions, entriesSurvey.HasEntries repeatedClass repeatedMark entries ∧
      List.Forall₂ (entriesSurvey.EntrySays repeatedClass) entries pairs ∧
      repeatedDefinition.restrictions = some restrictions ∧
      ∃ before behind, pairs = before ++ ("p", "y") :: behind ∧ ∀ pair ∈ behind, pair.1 ≠ "p" := by
  obtain ⟨entries, pairs, restrictions, listed, each, given, last, -⟩ :=
    extract_restrictions annotation?_repeatedClass extract_repeatedClass
  have kept : ⟨"p", "y"⟩ ∈ restrictions.restrictions := by
    cases given
    decide +kernel
  exact ⟨annotation?_repeatedClass, extract_repeatedClass, entries, pairs, restrictions, listed,
    each, given, (last _).mp kept⟩

/-- An entry that states a string and an explanation is about nothing else. -/
theorem EntrySays.eq_of_explained {identifier explanation : String} {pair : String × String}
    (saying : entriesSurvey.EntrySays loaded (explainedEntry identifier explanation) pair) :
    pair = (identifier, explanation) := by
  rw [explainedEntry] at saying
  obtain ⟨about, identified, explained⟩ := saying
  cases about.eq_of_stated rfl
  cases identified
  obtain ⟨text, rfl, same⟩ := Option.map_eq_some_iff.mp (explained.eq_of_stated rfl)
  cases same
  rfl

/-- Two explanations of one restriction, and the first one is lost. -/
theorem not_forall_kept : ¬ ∀ (survey : Survey) (loaded : LoadedClass)
    (extensionType : ExtensionType) (mark : Annotation) (definition : Definition),
    loaded.file.annotation? survey.settings.markers.restricted = some mark →
    (survey.extract loaded extensionType).outcome = .ok definition →
    ∃ entries pairs restrictions, survey.HasEntries loaded mark entries ∧
      List.Forall₂ (survey.EntrySays loaded) entries pairs ∧
      definition.restrictions = some restrictions ∧
      ∀ restriction, restriction ∈ restrictions.restrictions ↔
        (restriction.identifier, restriction.explanation) ∈ pairs := by
  intro kept
  obtain ⟨entries, pairs, restrictions, listed, each, given, exactly⟩ :=
    kept _ _ _ _ _ annotation?_repeatedClass extract_repeatedClass
  have stated : repeatedMark.find? "restrictions" = some (.array _) := rfl
  rcases listed with listed | ⟨listed, -⟩
  · cases listed.eq_of_stated stated
    cases each with
    | cons first _ =>
      -- The first entry is about `p` and explains it with `x`, which is not among the restrictions.
      have lost := (exactly ⟨"p", "x"⟩).mpr (first.eq_of_explained ▸ .head _)
      cases given
      exact absurd lost (by decide +kernel)
  · cases listed.eq_of_stated stated

end Survey

end ExtensionCatalog
