/-
**An extension is restricted exactly if its class is marked so.**

The marker alone decides: a class with it is restricted even if the marker explains nothing, and
whatever else a class carries, without the marker it is not. The formats then show which of the two
it is.

* `marker?_eq_ok`: a marker is an annotation of the class;
* `restrictions_eq_ok_iff`, `restrictions_eq_ok`: what restrictions are made of;
* `size_serviceApis_le`: no class has more contracts than interfaces;
* `extract_restricted`: **restricted extensions are shown as such, and others are not**.
-/

import ExtensionCatalog.Proofs.ClassFile.Reading
import ExtensionCatalog.Proofs.Definition.Restrictions
import ExtensionCatalog.Proofs.Discovery.Ancestors
import ExtensionCatalog.Proofs.Extraction.ServiceApis

namespace ExtensionCatalog

/-- The first annotation of a type is missing exactly if all are. -/
theorem ClassFile.annotation?_isSome_iff {file : ClassFile} {typeName : String} :
    (file.annotation? typeName).isSome ↔ ∃ mark ∈ file.annotations, mark.typeName = typeName := by
  rw [annotation?, List.find?_isSome]
  simp

namespace Survey

variable {survey : Survey} {loaded : LoadedClass} {extensionType : ExtensionType}

/-! ### The marker -/

/-- A class has a marker exactly if it has an annotation of its type. -/
theorem marker?_eq_ok {typeName : String} {marker : Option Marker}
    (found : (survey.marker? loaded typeName).outcome = .ok marker) :
    marker.map (·.mark) = loaded.file.annotation? typeName := by
  unfold marker? Marker.find? at found
  cases carried : loaded.file.annotation? typeName with
  | none =>
    rw [carried] at found
    cases found
    rfl
  | some mark =>
    rw [carried] at found
    simp only [Logged.outcome_bind, Outcome.bind_eq_ok_iff, Marker.view] at found
    obtain ⟨value, ⟨type, -, viewed⟩, equal⟩ := found
    cases equal
    split at viewed
    · cases viewed
      rfl
    · cases viewed

/-- What the restrictions of a class are made of. -/
theorem restrictions_eq_ok_iff {restrictions : Option Restrictions} :
    (survey.restrictions loaded).outcome = .ok restrictions ↔ ∃ marker,
      (survey.marker? loaded survey.settings.markers.restricted).outcome = .ok marker ∧
      match marker with
      | none => restrictions = none
      | some restricted => ∃ general entries specific,
        restricted.text? "value" = .ok general ∧
        restricted.items "restrictions" = .ok entries ∧
        (entries.mapM fun entry => (survey.restrictionOf loaded restricted entry).outcome) =
          .ok specific ∧
        restrictions = Restrictions.of? (some (general.getD "")) (.ofList specific) := by
  unfold Survey.restrictions
  rw [Logged.outcome_bind, Outcome.bind_eq_ok_iff]
  refine exists_congr fun marker => and_congr_right fun _ => ?_
  cases marker with
  | none => simp [eq_comm]
  | some restricted =>
    simp only [Logged.outcome_bind, Logged.outcome_mapM, Outcome.bind_eq_ok_iff]
    constructor
    · intro made
      obtain ⟨general, stated, entries, listed, specific, each, whole⟩ := made
      cases whole
      exact ⟨general, entries, specific, stated, listed, each, rfl⟩
    · intro made
      obtain ⟨general, entries, specific, stated, listed, each, rfl⟩ := made
      exact ⟨general, stated, entries, listed, specific, each, rfl⟩

/-- Restrictions are those of the marker, with an explanation, and without it there are none. -/
theorem restrictions_eq_ok {restrictions : Option Restrictions}
    (made : (survey.restrictions loaded).outcome = .ok restrictions) :
    (∃ mark ∈ loaded.file.annotations, mark.typeName = survey.settings.markers.restricted) ∧
        (∃ explanation specific, restrictions = Restrictions.of? (some explanation) specific) ∨
      (¬ ∃ mark ∈ loaded.file.annotations, mark.typeName = survey.settings.markers.restricted) ∧
        restrictions = none := by
  obtain ⟨marker, found, made⟩ := restrictions_eq_ok_iff.mp made
  have carried := marker?_eq_ok found
  rw [← ClassFile.annotation?_isSome_iff, ← carried]
  cases marker with
  | none => exact .inr ⟨by simp, made⟩
  | some restricted =>
    obtain ⟨general, entries, specific, -, -, -, whole⟩ := made
    exact .inl ⟨rfl, _, _, whole⟩

/-! ### The number of contracts -/

/-- Each interface stands for one contract at most. -/
theorem size_serviceApis_le {definition : Definition}
    (extracted : (survey.extract loaded extensionType).outcome = .ok definition) :
    definition.serviceApis.size ≤ loaded.file.interfaces.length := by
  obtain ⟨-, -, -, -, -, served⟩ := extract_eq_ok_iff.mp extracted
  split at served
  · obtain ⟨-, contract, found, -, -, each, whole⟩ := serviceApis_eq_ok_iff.mp served
    rw [whole]
    calc (SortedSet.ofList found.reduceOption).size
        ≤ found.reduceOption.length := SortedSet.size_ofList_le _
      _ ≤ found.length := List.reduceOption_length_le _
      _ = loaded.file.interfaces.length := (Outcome.mapM_eq_ok_iff.mp each).length_eq.symm
  · rw [← Except.ok.inj served]
    exact Nat.zero_le _

theorem numbered_of_extract {bytes : Bytes} (parsed : ClassFile.parse bytes = .ok loaded.file)
    {definition : Definition}
    (extracted : (survey.extract loaded extensionType).outcome = .ok definition) :
    definition.serviceApis.size ≤ Definition.indexLimit := by
  have few := size_serviceApis_le extracted
  have counted := ClassFile.length_interfaces_lt parsed
  have room : 0x10000 ≤ Definition.indexLimit := by decide
  omega

/-! ### Restricted extensions -/

/-- **Restricted extensions are shown as restricted, and others are not.** For every survey, type
and class of a class file whose extraction succeeds: the definition has restrictions exactly if the
class carries an annotation of the configured type; these have a general explanation, and every
format shows them with it; without them, no format shows any. -/
theorem extract_restricted (survey : Survey) {bytes : Bytes} {loaded : LoadedClass}
    (parsed : ClassFile.parse bytes = .ok loaded.file) {extensionType : ExtensionType}
    {definition : Definition}
    (extracted : (survey.extract loaded extensionType).outcome = .ok definition) :
    (definition.restrictions.isSome ↔
      ∃ mark ∈ loaded.file.annotations, mark.typeName = survey.settings.markers.restricted) ∧
    (∀ restrictions, definition.restrictions = some restrictions → ∃ explanation,
      restrictions.generalExplanation = some explanation ∧
        definition.ShowsRestricted explanation) ∧
    (definition.restrictions = none → definition.ShowsUnrestricted) := by
  obtain ⟨-, -, -, -, made, -⟩ := extract_eq_ok_iff.mp extracted
  have numbered := numbered_of_extract parsed extracted
  refine ⟨?marked, ?restricted, Definition.showsUnrestricted⟩
  case marked =>
    rcases restrictions_eq_ok made with ⟨carried, explanation, specific, explained⟩ | ⟨bare, none⟩
    · refine iff_of_true ?_ carried
      rw [Option.isSome_iff_ne_none, explained, Ne, Restrictions.of?_eq_none_iff]
      simp
    · exact iff_of_false (by simp [none]) bare
  case restricted =>
    intro restrictions restricted
    rcases restrictions_eq_ok made with ⟨-, explanation, specific, explained⟩ | ⟨-, none⟩
    · exact ⟨explanation, Restrictions.generalExplanation_of? (explained.symm.trans restricted),
        Definition.showsRestricted explained numbered⟩
    · rw [none] at restricted
      cases restricted

/-- The class file of an annotation type `D` without elements. -/
def bareMarkerClass : Bytes :=
  ClassFile.Layout.bytes {
    minorVersion := 0, majorVersion := 52, pool := [.text "D", .classRef 1]
    accessFlags := ClassFile.annotationFlag, name := 2, superName := 0, interfaces := []
    fields := [], methods := [], attributes := [] }

/-- A directory with the annotation type, by which extensions are marked as restricted. -/
def restrictedSurvey : Survey where
  context := .root ⟨⟨0, 0⟩, none, ∅, [.directory ⟨"/lib"⟩]⟩
  tree := {
    entries := .ofList [(["lib"], .directory), (["lib", "D.class"], .file bareMarkerClass)]
    workingDirectory := [] }
  settings := { markers := { restricted := "D" } }

/-- A class with the annotation. -/
def restrictedClass : LoadedClass :=
  ⟨⟨0, 0⟩, (ClassFile.parse (markedClass "A")).toOption.getD default⟩

/-- A marker that explains nothing restricts all the same, and every format says so. -/
theorem extract_restricted_bare :
    ClassFile.parse (markedClass "A") = .ok restrictedClass.file ∧
    (restrictedSurvey.extract restrictedClass .processor).outcome =
      .ok ⟨.processor, "A", none, ∅, some ⟨some "", ∅⟩, ∅⟩ ∧
    (∃ mark ∈ restrictedClass.file.annotations, mark.typeName = "D") ∧
    Definition.ShowsRestricted ⟨.processor, "A", none, ∅, some ⟨some "", ∅⟩, ∅⟩ "" := by
  have parsed : ClassFile.parse (markedClass "A") = .ok restrictedClass.file := by
    have read : (ClassFile.parse (markedClass "A")).toOption.isSome := by decide +kernel
    obtain ⟨file, found⟩ := Option.isSome_iff_exists.mp read
    rw [restrictedClass, found]
    exact Outcome.eq_ok_of_toOption found
  have extracted : (restrictedSurvey.extract restrictedClass .processor).outcome =
      .ok ⟨.processor, "A", none, ∅, some ⟨some "", ∅⟩, ∅⟩ :=
    Outcome.eq_ok_of_toOption (by decide +kernel)
  obtain ⟨marked, restricted, -⟩ := extract_restricted restrictedSurvey parsed extracted
  obtain ⟨explanation, given, shown⟩ := restricted _ rfl
  cases given
  exact ⟨parsed, extracted, marked.mp rfl, shown⟩

end Survey

end ExtensionCatalog
