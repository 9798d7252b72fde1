/-
**The XML document of a catalogue loses nothing that it shows.**

Every part of a definition has a place of its own in its entry, absent and empty parts are written
differently, and the names of the elements say which of them hold texts. So a document determines
the version of the framework interface and the definitions of every documented type.

* `Catalog.toElement_fits`: the names in a document say which elements hold a text;
* `Definition.toElement_inj`: an entry determines the definition, if the type is known;
* `Catalog.toElement_eq_iff`: the elements of two catalogues;
* `Catalog.renderXml_eq_iff`: **two documents are the same exactly if they are of the same version
  and definitions**.
-/

import ExtensionCatalog.Definition.Xml
import ExtensionCatalog.Proofs.Xml.Unambiguous
import Mathlib.Data.List.Basic

namespace ExtensionCatalog

open Xml

/-! ### The names in a document -/

/-- The names of the elements that hold a text. -/
def textNames : List String :=
  ["nifiApiVersion", "name", "description", "tag", "explanation", "identifier", "className",
    "groupId", "artifactId", "version"]

/-- The names of the elements that hold other elements. -/
def blockNames : List String :=
  ["extensions", "processors", "processor", "controllerServices", "controllerService",
    "reportingTasks", "reportingTask", "tags", "restrictions", "restriction", "providedServiceAPIs",
    "service"]

theorem plain_of_mem_textNames : ∀ name ∈ textNames, IsPlainName name := by decide +kernel

theorem plain_of_mem_blockNames : ∀ name ∈ blockNames, IsPlainName name ∧ name ∉ textNames := by
  decide +kernel

section Fits

variable {name : String}

theorem fits_text (listed : name ∈ textNames) (content : String) :
    (Element.text name content).Fits textNames :=
  .text (plain_of_mem_textNames name listed) listed

theorem fits_ofText? (listed : name ∈ textNames) (content : Option String) :
    (Element.ofText? name content).Fits textNames := by
  cases content with
  | none => exact .empty (plain_of_mem_textNames name listed)
  | some content => exact fits_text listed content

theorem fits_block (listed : name ∈ blockNames) {children : List Element}
    (each : ∀ child ∈ children, child.Fits textNames) :
    (Element.block name children).Fits textNames :=
  .block (plain_of_mem_blockNames name listed).1 (plain_of_mem_blockNames name listed).2 each

theorem fits_ofChildren (listed : name ∈ blockNames) {children : List Element}
    (each : ∀ child ∈ children, child.Fits textNames) :
    (Element.ofChildren name children).Fits textNames := by
  cases children with
  | nil => exact .empty (plain_of_mem_blockNames name listed).1
  | cons first rest => exact fits_block listed each

end Fits

theorem Restriction.toElement_fits (restriction : Restriction) :
    restriction.toElement.Fits textNames := by
  refine fits_block (by decide) ?_
  simp only [List.forall_mem_cons, List.not_mem_nil, false_implies, implies_true, and_true]
  exact ⟨fits_text (by decide) _, fits_text (by decide) _⟩

theorem Restrictions.toElement_fits (restrictions : Restrictions) :
    restrictions.toElement.Fits textNames := by
  refine fits_block (by decide) ?_
  rw [List.forall_mem_cons, List.forall_mem_map]
  exact ⟨fits_ofText? (by decide) _, fun restriction _ => restriction.toElement_fits⟩

theorem ServiceApi.toElement_fits (api : ServiceApi) : api.toElement.Fits textNames := by
  refine fits_block (by decide) ?_
  simp only [List.forall_mem_cons, List.not_mem_nil, false_implies, implies_true, and_true]
  exact ⟨fits_text (by decide) _, fits_text (by decide) _, fits_text (by decide) _,
    fits_text (by decide) _⟩

namespace Definition

theorem commonElements_fit (definition : Definition) :
    ∀ element ∈ definition.commonElements, element.Fits textNames := by
  unfold commonElements
  simp only [List.forall_mem_cons, List.not_mem_nil, false_implies, implies_true, and_true]
  refine ⟨fits_text (by decide) _, fits_ofText? (by decide) _, ?_, ?_⟩
  · refine fits_ofChildren (by decide) ?_
    rw [List.forall_mem_map]
    exact fun tag _ => fits_text (by decide) tag
  · cases definition.restrictions with
    | none => exact .empty (plain_of_mem_blockNames _ (by decide)).1
    | some restrictions => exact restrictions.toElement_fits

theorem serviceElements_fit (definition : Definition) :
    ∀ element ∈ definition.serviceElements, element.Fits textNames := by
  unfold serviceElements
  split
  · rw [List.forall_mem_singleton]
    refine fits_ofChildren (by decide) ?_
    rw [List.forall_mem_map]
    exact fun api _ => api.toElement_fits
  · exact fun _ member => absurd member List.not_mem_nil

theorem toElement_fits {name : String} (listed : name ∈ blockNames) (definition : Definition) :
    (definition.toElement name).Fits textNames := by
  refine fits_block listed ?_
  rw [List.forall_mem_append]
  exact ⟨definition.commonElements_fit, definition.serviceElements_fit⟩

end Definition

namespace Catalog

theorem elementNames_listed {extensionType : ExtensionType} {sectionName entryName : String}
    (named : extensionType.elementNames? = some (sectionName, entryName)) :
    sectionName ∈ blockNames ∧ entryName ∈ blockNames := by
  cases extensionType <;> cases named <;> decide

theorem section_fits {catalog : Catalog} {extensionType : ExtensionType} {element : Element}
    (shown : catalog.section? extensionType = some element) : element.Fits textNames := by
  obtain ⟨⟨sectionName, entryName⟩, named, rfl⟩ := Option.map_eq_some_iff.mp shown
  obtain ⟨sectionListed, entryListed⟩ := elementNames_listed named
  refine fits_block sectionListed ?_
  rw [List.forall_mem_map]
  exact fun definition _ => definition.toElement_fits entryListed

/-- The names in a document say which elements hold a text. -/
theorem toElement_fits (catalog : Catalog) (apiVersion : Option String) :
    (catalog.toElement apiVersion).Fits textNames := by
  refine fits_block (by decide) ?_
  rw [List.forall_mem_append, List.forall_mem_map]
  constructor
  · exact fun version _ => fits_text (by decide) version
  · intro element member
    obtain ⟨extensionType, -, shown⟩ := List.mem_filterMap.mp member
    exact section_fits shown

end Catalog

/-! ### What an element shows -/

/-- Lists are told apart by their images if their items are. -/
theorem eq_of_map_eq {α β : Type} {image : α → β} {items others : List α}
    (apart : ∀ item ∈ items, ∀ other ∈ others, image item = image other → item = other)
    (same : items.map image = others.map image) : items = others := by
  induction items generalizing others with
  | nil => exact (List.map_eq_nil_iff.mp same.symm).symm
  | cons item items hypothesis =>
    cases others with
    | nil => cases same
    | cons other others =>
      obtain ⟨first, rest⟩ := List.cons.inj same
      have firsts := apart item List.mem_cons_self other List.mem_cons_self first
      have rests := hypothesis (fun item member other member' =>
        apart item (List.mem_cons_of_mem _ member) other (List.mem_cons_of_mem _ member')) rest
      rw [firsts, rests]

theorem eq_of_map_toList_eq {α β : Type} [Ord α] {image : α → β}
    (injective : Function.Injective image) {first second : SortedSet α}
    (same : first.toList.map image = second.toList.map image) : first = second :=
  SortedSet.toList_injective (List.map_injective_iff.mpr injective same)

theorem text_injective (name : String) : Function.Injective (Element.text name) := by
  intro first second same
  exact (Element.text.inj same).2

theorem ofText?_injective (name : String) : Function.Injective (Element.ofText? name) := by
  intro first second same
  cases first <;> cases second <;> simp_all [Element.ofText?]

theorem ofChildren_injective (name : String) : Function.Injective (Element.ofChildren name) := by
  intro first second same
  cases first <;> cases second <;> simp_all [Element.ofChildren]

theorem Restriction.toElement_injective : Function.Injective Restriction.toElement := by
  intro first second same
  cases first
  cases second
  simp_all [toElement]

theorem ServiceApi.toElement_injective : Function.Injective ServiceApi.toElement := by
  intro first second same
  cases first
  cases second
  simp_all [toElement]

theorem Restrictions.toElement_injective : Function.Injective Restrictions.toElement := by
  intro first second same
  simp only [toElement, Element.block.injEq, List.cons.injEq, true_and] at same
  obtain ⟨general, specific⟩ := same
  have explained := ofText?_injective _ general
  have restricted := eq_of_map_toList_eq Restriction.toElement_injective specific
  cases first
  cases second
  cases explained
  cases restricted
  rfl

namespace Definition

theorem commonElements_inj {definition other : Definition}
    (same : definition.commonElements = other.commonElements) :
    definition.name = other.name ∧ definition.description = other.description ∧
      definition.tags = other.tags ∧ definition.restrictions = other.restrictions := by
  simp only [commonElements, List.cons.injEq, Element.text.injEq, true_and, and_true] at same
  obtain ⟨named, described, tagged, restricted⟩ := same
  refine ⟨named, ofText?_injective _ described, ?_, ?_⟩
  · exact eq_of_map_toList_eq (text_injective "tag") (ofChildren_injective _ tagged)
  · revert restricted
    generalize definition.restrictions = own
    generalize other.restrictions = others
    intro restricted
    cases own with
    | none =>
      cases others with
      | none => rfl
      | some _ => cases restricted
    | some own =>
      cases others with
      | none => cases restricted
      | some others => rw [Restrictions.toElement_injective restricted]

/-- An entry determines the definition, if the type is known and only controller services provide
service contracts. -/
theorem toElement_inj {entryName : String} {definition other : Definition}
    (sameType : definition.extensionType = other.extensionType)
    (plain : definition.extensionType ≠ .controllerService → definition.serviceApis = ∅)
    (plain' : other.extensionType ≠ .controllerService → other.serviceApis = ∅)
    (same : definition.toElement entryName = other.toElement entryName) : definition = other := by
  have lists := (Element.block.inj same).2
  have common : definition.commonElements = other.commonElements ∧
      definition.serviceElements = other.serviceElements :=
    List.append_inj lists rfl
  obtain ⟨named, described, tagged, restricted⟩ := commonElements_inj common.1
  have served : definition.serviceApis = other.serviceApis := by
    by_cases service : definition.extensionType = .controllerService
    · have listed := common.2
      unfold serviceElements at listed
      rw [if_pos service, if_pos (sameType ▸ service)] at listed
      have apis := ofChildren_injective _ (List.singleton_inj.mp listed)
      exact eq_of_map_toList_eq ServiceApi.toElement_injective apis
    · rw [plain service, plain' (sameType ▸ service)]
  cases definition
  cases other
  cases sameType
  cases named
  cases described
  cases tagged
  cases restricted
  cases served
  rfl

end Definition

/-! ### What a document shows -/

namespace Catalog

/-- Every definition stands under its own type, and only controller services provide service
contracts. -/
structure IsFiled (catalog : Catalog) : Prop where
  typed : ∀ extensionType, ∀ definition ∈ catalog.definitionsOf extensionType,
    definition.extensionType = extensionType
  plain : ∀ extensionType, ∀ definition ∈ catalog.definitionsOf extensionType,
    definition.extensionType ≠ .controllerService → definition.serviceApis = ∅

/-- The definitions of a type; none if the type is missing. -/
theorem definitionsOf_eq (catalog : Catalog) (extensionType : ExtensionType) :
    catalog.definitionsOf extensionType = ((catalog.find? extensionType).getD ∅).toList := by
  unfold definitionsOf
  cases catalog.find? extensionType <;> rfl

variable {first second : Catalog}

theorem section_eq_iff (filed : first.IsFiled) (filed' : second.IsFiled)
    {extensionType : ExtensionType} (documented : extensionType ∈ ExtensionType.documented) :
    first.section? extensionType = second.section? extensionType ↔
      (first.find? extensionType).getD ∅ = (second.find? extensionType).getD ∅ := by
  have named : ∃ names, extensionType.elementNames? = some names := by
    cases extensionType <;> first | exact ⟨_, rfl⟩ | exact absurd documented (by decide)
  obtain ⟨⟨sectionName, entryName⟩, named⟩ := named
  rw [← SortedSet.toList_injective.eq_iff, ← definitionsOf_eq, ← definitionsOf_eq]
  unfold section?
  rw [named]
  constructor
  · intro same
    refine eq_of_map_eq ?_ (Element.block.inj (Option.some.inj same)).2
    intro definition member other member' sameEntry
    refine Definition.toElement_inj ?_ (filed.plain _ _ member) (filed'.plain _ _ member') sameEntry
    rw [filed.typed _ _ member, filed'.typed _ _ member']
  · intro same
    rw [same]

/-- Every documented type has a section. -/
theorem sections_eq_iff :
    ExtensionType.documented.filterMap first.section? =
        ExtensionType.documented.filterMap second.section? ↔
      ∀ extensionType ∈ ExtensionType.documented,
        first.section? extensionType = second.section? extensionType := by
  have whole : ∀ catalog : Catalog, ExtensionType.documented.map catalog.section? =
      (ExtensionType.documented.filterMap catalog.section?).map some := fun _ => rfl
  rw [← List.map_inj_left, whole, whole]
  exact (List.map_injective_iff.mpr fun _ _ => Option.some.inj).eq_iff.symm

theorem toElement_eq_iff (filed : first.IsFiled) (filed' : second.IsFiled)
    {apiVersion otherVersion : Option String} :
    first.toElement apiVersion = second.toElement otherVersion ↔
      apiVersion = otherVersion ∧ ∀ extensionType ∈ ExtensionType.documented,
        (first.find? extensionType).getD ∅ = (second.find? extensionType).getD ∅ := by
  have shown : (∀ extensionType ∈ ExtensionType.documented,
      first.section? extensionType = second.section? extensionType) ↔
      ∀ extensionType ∈ ExtensionType.documented,
        (first.find? extensionType).getD ∅ = (second.find? extensionType).getD ∅ :=
    forall₂_congr fun _ documented => section_eq_iff filed filed' documented
  rw [← shown, ← sections_eq_iff]
  unfold toElement
  constructor
  · intro same
    obtain ⟨versions, sections⟩ := List.append_inj' (Element.block.inj same).2 rfl
    refine ⟨?_, sections⟩
    have listed := List.map_injective_iff.mpr (text_injective "nifiApiVersion") versions
    rw [← Option.head?_toList (o := apiVersion), listed, Option.head?_toList]
  · intro same
    rw [same.1, same.2]

/-- **Two documents are the same exactly if they are of the same version and definitions.** The
version may be missing, and a missing type counts as one without definitions. -/
theorem renderXml_eq_iff (filed : first.IsFiled) (filed' : second.IsFiled)
    (apiVersion otherVersion : Option String) :
    first.renderXml apiVersion = second.renderXml otherVersion ↔
      apiVersion = otherVersion ∧ ∀ extensionType ∈ ExtensionType.documented,
        (first.find? extensionType).getD ∅ = (second.find? extensionType).getD ∅ := by
  rw [← toElement_eq_iff filed filed']
  unfold renderXml
  constructor
  · intro same
    exact renderDocument_inj (first.toElement_fits apiVersion) (second.toElement_fits otherVersion)
      same
  · intro same
    rw [same]

/-- A catalogue with a processor whose name looks like the rest of its entry, and a connector. -/
def imitatingCatalog (description : Option String) : Catalog :=
  .ofList [(.processor, .ofList
      [⟨.processor, "A</name>\n            <description/>", description, ∅, none, ∅⟩]),
    (.connector, .ofList [.bare .connector "C"])]

theorem imitatingCatalog_isFiled (description : Option String) :
    (imitatingCatalog description).IsFiled where
  typed := by
    intro extensionType definition member
    cases extensionType with
    | processor | connector =>
      cases List.mem_singleton.mp member
      rfl
    | controllerService | reportingTask => cases member
  plain := by
    intro extensionType definition member _
    cases extensionType with
    | processor | connector =>
      cases List.mem_singleton.mp member
      rfl
    | controllerService | reportingTask => cases member

/-- An empty description is told apart from none, and so is an empty version. -/
theorem renderXml_eq_iff_imitating :
    (imitatingCatalog none).IsFiled ∧ (imitatingCatalog (some "")).IsFiled ∧
      (imitatingCatalog none).renderXml (some "") ≠
        (imitatingCatalog (some "")).renderXml (some "") ∧
      (imitatingCatalog none).renderXml none ≠ (imitatingCatalog none).renderXml (some "") := by
  have filed := imitatingCatalog_isFiled none
  have filed' := imitatingCatalog_isFiled (some "")
  refine ⟨filed, filed', ?_, ?_⟩
  · intro same
    have definitions := ((renderXml_eq_iff filed filed' _ _).mp same).2 .processor (by decide)
    exact absurd definitions (by decide)
  · intro same
    exact absurd ((renderXml_eq_iff filed filed _ _).mp same).1 (by decide)

end Catalog

end ExtensionCatalog
