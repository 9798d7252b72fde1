/-
**The XML document of a catalogue is well formed as far as its texts are.**

A document has the declaration and one element `extensions`, with properly nested tags, whatever
the catalogue holds. Markup in a text is written as references, but every other character is
written as it is, those included that no document may hold. So a document is well formed exactly if
the texts it shows hold allowed characters only.

* `Definition.shownTexts`, `Catalog.shownTexts`: the texts that a document shows;
* `Catalog.texts_toElement`, `Catalog.toElement_isNamed`: the texts and the names in a document;
* `Catalog.renderXml_isDocument`: **when a document is well formed**;
* `Catalog.renderXml_controlCharacter`: a document that is not.
-/

import ExtensionCatalog.Proofs.Definition.Xml
import ExtensionCatalog.Proofs.Xml.WellFormed

namespace ExtensionCatalog

open Xml

/-! ### Texts -/

def Restrictions.shownTexts (restrictions : Restrictions) : List String :=
  restrictions.generalExplanation.toList ++
    restrictions.restrictions.toList.flatMap fun restriction =>
      [restriction.identifier, restriction.explanation]

def ServiceApi.shownTexts (api : ServiceApi) : List String :=
  [api.className, api.groupId, api.artifactId, api.version]

/-- The texts that the entry of a definition shows. -/
def Definition.shownTexts (definition : Definition) : List String :=
  [definition.name] ++ definition.description.toList ++ definition.tags.toList ++
    definition.restrictions.toList.flatMap Restrictions.shownTexts ++
    if definition.extensionType = .controllerService then
      definition.serviceApis.toList.flatMap ServiceApi.shownTexts
    else []

/-- The texts that the document of a catalogue shows: the version of the framework interface, and
those of the definitions of the documented types. -/
def Catalog.shownTexts (catalog : Catalog) (apiVersion : Option String) : List String :=
  apiVersion.toList ++
    ExtensionType.documented.flatMap fun extensionType =>
      (catalog.definitionsOf extensionType).flatMap Definition.shownTexts

theorem texts_ofText? (name : String) (content : Option String) :
    (Element.ofText? name content).texts = content.toList := by
  cases content <;> rfl

theorem texts_block (name : String) (children : List Element) :
    (Element.block name children).texts = children.flatMap Element.texts := Element.textsOf_eq _

theorem texts_ofChildren (name : String) (children : List Element) :
    (Element.ofChildren name children).texts = children.flatMap Element.texts := by
  cases children with
  | nil => rfl
  | cons first rest => exact texts_block name _

/-- Elements that hold one text each. -/
theorem flatMap_texts_text (name : String) (contents : List String) :
    (contents.map (Element.text name)).flatMap Element.texts = contents := by
  rw [List.flatMap_map]
  exact List.flatMap_singleton' contents

theorem Restrictions.texts_toElement (restrictions : Restrictions) :
    restrictions.toElement.texts = restrictions.shownTexts := by
  rw [toElement, texts_block, List.flatMap_cons, texts_ofText?, List.flatMap_map]
  rfl

namespace Definition

/-- The element that shows the restrictions, or that there are none. -/
def restrictionsElement (definition : Definition) : Element :=
  (definition.restrictions.map (·.toElement)).getD (.empty "restrictions")

theorem commonElements_eq (definition : Definition) :
    definition.commonElements = [.text "name" definition.name,
      .ofText? "description" definition.description,
      .ofChildren "tags" (definition.tags.toList.map (.text "tag")),
      definition.restrictionsElement] := by
  unfold commonElements restrictionsElement
  cases definition.restrictions <;> rfl

theorem texts_restrictionsElement (definition : Definition) :
    definition.restrictionsElement.texts =
      definition.restrictions.toList.flatMap Restrictions.shownTexts := by
  unfold restrictionsElement
  cases definition.restrictions with
  | none => rfl
  | some restrictions =>
    rw [Option.toList_some, List.flatMap_singleton]
    exact restrictions.texts_toElement

theorem texts_serviceElements (definition : Definition) :
    definition.serviceElements.flatMap Element.texts =
      if definition.extensionType = .controllerService then
        definition.serviceApis.toList.flatMap ServiceApi.shownTexts
      else [] := by
  unfold serviceElements
  split
  · rw [List.flatMap_singleton, texts_ofChildren, List.flatMap_map]
    rfl
  · rfl

theorem texts_toElement (name : String) (definition : Definition) :
    (definition.toElement name).texts = definition.shownTexts := by
  rw [toElement, texts_block, List.flatMap_append, texts_serviceElements, commonElements_eq,
    List.flatMap_cons, List.flatMap_cons, List.flatMap_cons, List.flatMap_singleton, texts_ofText?,
    texts_ofChildren, flatMap_texts_text, texts_restrictionsElement, shownTexts]
  simp only [Element.texts, List.append_assoc]

end Definition

namespace Catalog

/-- Every documented type has names for its section and its entries. -/
theorem exists_elementNames {extensionType : ExtensionType}
    (documented : extensionType ∈ ExtensionType.documented) :
    ∃ names, extensionType.elementNames? = some names := by
  cases extensionType <;> first | exact ⟨_, rfl⟩ | exact absurd documented (by decide)

theorem texts_section (catalog : Catalog) {extensionType : ExtensionType}
    (documented : extensionType ∈ ExtensionType.documented) :
    (catalog.section? extensionType).toList.flatMap Element.texts =
      (catalog.definitionsOf extensionType).flatMap Definition.shownTexts := by
  obtain ⟨⟨sectionName, entryName⟩, named⟩ := exists_elementNames documented
  rw [section?, named, Option.map_some, Option.toList_some, List.flatMap_singleton, texts_block,
    List.flatMap_map]
  simp only [Definition.texts_toElement]

/-- The texts in a document are those it shows. -/
theorem texts_toElement (catalog : Catalog) (apiVersion : Option String) :
    (catalog.toElement apiVersion).texts = catalog.shownTexts apiVersion := by
  rw [toElement, texts_block, List.flatMap_append, flatMap_texts_text,
    List.filterMap_eq_flatMap_toList, List.flatMap_assoc,
    List.flatMap_congr fun _ documented => catalog.texts_section documented, shownTexts]

end Catalog

/-! ### Names -/

namespace Xml.Element

/-- The names of an element and of the elements in it are names of the format. -/
def IsNamed (element : Element) : Prop := ∀ name ∈ element.names, IsName name.toList

end Xml.Element

theorem isName_of_listed : ∀ name ∈ textNames ++ blockNames, IsName name.toList := by
  decide +kernel

section Named

variable {name : String} (listed : name ∈ textNames ++ blockNames)

include listed

theorem isNamed_empty : (Element.empty name).IsNamed :=
  List.forall_mem_singleton.mpr (isName_of_listed name listed)

theorem isNamed_text (content : String) : (Element.text name content).IsNamed :=
  List.forall_mem_singleton.mpr (isName_of_listed name listed)

theorem isNamed_ofText? (content : Option String) : (Element.ofText? name content).IsNamed := by
  cases content with
  | none => exact isNamed_empty listed
  | some content => exact isNamed_text listed content

theorem isNamed_block {children : List Element} (each : ∀ child ∈ children, child.IsNamed) :
    (Element.block name children).IsNamed := by
  refine List.forall_mem_cons.mpr ⟨isName_of_listed name listed, fun other member => ?_⟩
  rw [Element.namesOf_eq] at member
  obtain ⟨child, inside, member⟩ := List.mem_flatMap.mp member
  exact each child inside other member

theorem isNamed_ofChildren {children : List Element} (each : ∀ child ∈ children, child.IsNamed) :
    (Element.ofChildren name children).IsNamed := by
  cases children with
  | nil => exact isNamed_empty listed
  | cons first rest => exact isNamed_block listed each

end Named

theorem Restriction.toElement_isNamed (restriction : Restriction) :
    restriction.toElement.IsNamed := by
  refine isNamed_block (by decide) ?_
  simp only [List.forall_mem_cons, List.not_mem_nil, false_implies, implies_true, and_true]
  exact ⟨isNamed_text (by decide) _, isNamed_text (by decide) _⟩

theorem ServiceApi.toElement_isNamed (api : ServiceApi) : api.toElement.IsNamed := by
  refine isNamed_block (by decide) ?_
  simp only [List.forall_mem_cons, List.not_mem_nil, false_implies, implies_true, and_true]
  exact ⟨isNamed_text (by decide) _, isNamed_text (by decide) _, isNamed_text (by decide) _,
    isNamed_text (by decide) _⟩

namespace Definition

theorem restrictionsElement_isNamed (definition : Definition) :
    definition.restrictionsElement.IsNamed := by
  unfold restrictionsElement
  cases definition.restrictions with
  | none => exact isNamed_empty (by decide)
  | some restrictions =>
    refine isNamed_block (by decide) ?_
    rw [List.forall_mem_cons, List.forall_mem_map]
    exact ⟨isNamed_ofText? (by decide) _, fun restriction _ => restriction.toElement_isNamed⟩

theorem toElement_isNamed {name : String} (listed : name ∈ blockNames) (definition : Definition) :
    (definition.toElement name).IsNamed := by
  refine isNamed_block (List.mem_append_right _ listed) ?_
  rw [List.forall_mem_append, commonElements_eq]
  constructor
  · simp only [List.forall_mem_cons, List.not_mem_nil, false_implies, implies_true, and_true]
    refine ⟨isNamed_text (by decide) _, isNamed_ofText? (by decide) _,
      isNamed_ofChildren (by decide) ?_, definition.restrictionsElement_isNamed⟩
    rw [List.forall_mem_map]
    exact fun tag _ => isNamed_text (by decide) tag
  · unfold serviceElements
    split
    · rw [List.forall_mem_singleton]
      refine isNamed_ofChildren (by decide) ?_
      rw [List.forall_mem_map]
      exact fun api _ => api.toElement_isNamed
    · exact fun _ member => absurd member List.not_mem_nil

end Definition

namespace Catalog

/-- The names in a document are names of the format. -/
theorem toElement_isNamed (catalog : Catalog) (apiVersion : Option String) :
    (catalog.toElement apiVersion).IsNamed := by
  refine isNamed_block (by decide) ?_
  rw [List.forall_mem_append, List.forall_mem_map]
  constructor
  · exact fun version _ => isNamed_text (by decide) version
  · intro element member
    obtain ⟨extensionType, -, shown⟩ := List.mem_filterMap.mp member
    obtain ⟨⟨sectionName, entryName⟩, named, rfl⟩ := Option.map_eq_some_iff.mp shown
    obtain ⟨sectionListed, entryListed⟩ := elementNames_listed named
    refine isNamed_block (List.mem_append_right _ sectionListed) ?_
    rw [List.forall_mem_map]
    exact fun definition _ => definition.toElement_isNamed entryListed

/-! ### Documents -/

/-- **When the document of a catalogue is well formed.** It always has the declaration and one
element `extensions` with properly nested tags, and every character in it is one that the format
allows exactly if this holds of the texts that it shows. -/
theorem renderXml_isDocument (catalog : Catalog) (apiVersion : Option String) :
    IsDocument (fun _ => True) "extensions" (catalog.renderXml apiVersion) ∧
      (IsDocument IsAllowed "extensions" (catalog.renderXml apiVersion) ↔
        ∀ text ∈ catalog.shownTexts apiVersion, ∀ c ∈ text.toList, IsAllowed c) := by
  have named := catalog.toElement_isNamed apiVersion
  constructor
  · exact isDocument_renderDocument ⟨trivial, trivial, trivial⟩ named fun _ _ _ _ => trivial
  · rw [← texts_toElement]
    exact isDocument_renderDocument_iff named

/-- A catalogue with a processor whose description holds a control character. -/
def controlCatalog : Catalog :=
  .ofList [(.processor, .ofList
    [{ Definition.bare .processor "org.example.P" with description := some "a\x01b" }])]

/-- The description is written as it is, so the document is not well formed. -/
theorem renderXml_controlCharacter :
    ¬ ∀ (catalog : Catalog) (apiVersion : Option String),
      IsDocument IsAllowed "extensions" (catalog.renderXml apiVersion) := by
  intro wellFormed
  have documented := wellFormed controlCatalog none
  have texts :=
    (isDocument_renderDocument_iff (controlCatalog.toElement_isNamed none)).mp documented
  rw [texts_toElement] at texts
  exact absurd (texts "a\x01b" (by decide +kernel) '\x01' (by decide +kernel)) (by decide)

end Catalog

end ExtensionCatalog
