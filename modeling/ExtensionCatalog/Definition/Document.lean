/-
**Definitions as structured documents.**

* `Definition.toDocument`, `Definition.ofDocument?`: the document of a definition and its reading;
* `Catalog.toDocument`, `Catalog.ofDocument?`: the same for a whole catalogue;
* `Catalog.renderJson`: the JSON text of a catalogue.
-/

import ExtensionCatalog.Definition.Basic
import ExtensionCatalog.Json

namespace ExtensionCatalog

open Document

/-- A text or null. -/
def Document.ofText? : Option String → Document
  | some value => .text value
  | none => .null

namespace ExtensionType

def ofDocument? (dialect : Dialect) : Document → Option ExtensionType :=
  readChoice dialect ofName?

end ExtensionType

namespace Restriction

def toDocument (restriction : Restriction) : Document :=
  .table [("identifier", .text restriction.identifier),
    ("explanation", .text restriction.explanation)]

def ofDocument? (dialect : Dialect) (document : Document) : Option Restriction := do
  let record ← document.record dialect 2
  return {
    identifier := ← record.required "identifier" 0 readText
    explanation := ← record.required "explanation" 1 readText }

end Restriction

namespace Restrictions

def toDocument (restrictions : Restrictions) : Document :=
  .table [("general_explanation", ofText? restrictions.generalExplanation),
    ("restrictions", .list (restrictions.restrictions.toList.map (·.toDocument)))]

def ofDocument? (dialect : Dialect) (document : Document) : Option Restrictions := do
  let record ← document.record dialect 2
  return {
    generalExplanation := ← record.optional "general_explanation" 0 readText
    restrictions := .ofList
      (← record.required "restrictions" 1 (readList (Restriction.ofDocument? dialect))) }

end Restrictions

namespace ServiceApi

def toDocument (api : ServiceApi) : Document :=
  .table [("class_name", .text api.className), ("group_id", .text api.groupId),
    ("artifact_id", .text api.artifactId), ("version", .text api.version)]

def ofDocument? (dialect : Dialect) (document : Document) : Option ServiceApi := do
  let record ← document.record dialect 4
  return {
    className := ← record.required "class_name" 0 readText
    groupId := ← record.required "group_id" 1 readText
    artifactId := ← record.required "artifact_id" 2 readText
    version := ← record.required "version" 3 readText }

end ServiceApi

namespace Definition

def toDocument (definition : Definition) : Document :=
  .table [("extension_type", .text definition.extensionType.name), ("name", .text definition.name),
    ("capability_description", ofText? definition.description),
    ("tags", .list (definition.tags.toList.map .text)),
    ("restrictions", (definition.restrictions.map (·.toDocument)).getD .null),
    ("provided_service_apis", .list (definition.serviceApis.toList.map (·.toDocument)))]

def ofDocument? (dialect : Dialect) (document : Document) : Option Definition := do
  let record ← document.record dialect 6
  return {
    extensionType := ← record.required "extension_type" 0 (ExtensionType.ofDocument? dialect)
    name := ← record.required "name" 1 readText
    description := ← record.optional "capability_description" 2 readText
    tags := .ofList (← record.withDefault "tags" 3 (readList readText) [])
    restrictions :=
      ← record.withDefault "restrictions" 4 (readOptional (Restrictions.ofDocument? dialect)) none
    serviceApis := .ofList
      (← record.withDefault "provided_service_apis" 5 (readList (ServiceApi.ofDocument? dialect))
        []) }

end Definition

namespace Catalog

def toDocument (catalog : Catalog) : Document :=
  .table (catalog.toList.map fun (extensionType, definitions) =>
    (extensionType.name, .list (definitions.toList.map (·.toDocument))))

def ofDocument? (dialect : Dialect) (document : Document) : Option Catalog := do
  let entries ← document.entries?
  let pairs ← entries.mapM fun (name, definitions) => do
    let extensionType ← ExtensionType.ofName? name
    let definitions ← readList (Definition.ofDocument? dialect) definitions
    return (extensionType, SortedSet.ofList definitions)
  return .ofList pairs

/-- The JSON text of a catalogue. -/
def renderJson (catalog : Catalog) : String := Json.render catalog.toDocument

end Catalog

end ExtensionCatalog
