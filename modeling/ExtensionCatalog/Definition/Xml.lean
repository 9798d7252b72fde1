/-
**The catalogue as an XML document.**

The root element holds the version of the framework interface, if it is known, and one section for
each documented type. Only controller services list service contracts.

* `Definition.toElement`: the entry of a definition;
* `Catalog.toElement`: the whole document;
* `Catalog.renderXml`: its text.
-/

import ExtensionCatalog.Definition.Basic
import ExtensionCatalog.Xml

namespace ExtensionCatalog

open Xml

/-- The name of the section of a documented type, and of the entries in it. -/
def ExtensionType.elementNames? : ExtensionType → Option (String × String)
  | processor => some ("processors", "processor")
  | controllerService => some ("controllerServices", "controllerService")
  | reportingTask => some ("reportingTasks", "reportingTask")
  | connector => none

def Restriction.toElement (restriction : Restriction) : Element :=
  .block "restriction"
    [.text "identifier" restriction.identifier, .text "explanation" restriction.explanation]

def Restrictions.toElement (restrictions : Restrictions) : Element :=
  .block "restrictions" <|
    .ofText? "explanation" restrictions.generalExplanation ::
      restrictions.restrictions.toList.map (·.toElement)

def ServiceApi.toElement (api : ServiceApi) : Element :=
  .block "service"
    [.text "className" api.className, .text "groupId" api.groupId,
      .text "artifactId" api.artifactId, .text "version" api.version]

namespace Definition

/-- What every entry holds. -/
def commonElements (definition : Definition) : List Element :=
  [.text "name" definition.name,
    .ofText? "description" definition.description,
    .ofChildren "tags" (definition.tags.toList.map (.text "tag")),
    match definition.restrictions with
    | some restrictions => restrictions.toElement
    | none => .empty "restrictions"]

/-- The list of service contracts, in the entry of a controller service. -/
def serviceElements (definition : Definition) : List Element :=
  if definition.extensionType = .controllerService then
    [.ofChildren "providedServiceAPIs" (definition.serviceApis.toList.map (·.toElement))]
  else []

/-- The entry of a definition. -/
def toElement (name : String) (definition : Definition) : Element :=
  .block name (definition.commonElements ++ definition.serviceElements)

end Definition

namespace Catalog

/-- The section of a type. -/
def section? (catalog : Catalog) (extensionType : ExtensionType) : Option Element :=
  extensionType.elementNames?.map fun (sectionName, entryName) =>
    .block sectionName ((catalog.definitionsOf extensionType).map (·.toElement entryName))

/-- The whole document. -/
def toElement (catalog : Catalog) (apiVersion : Option String) : Element :=
  .block "extensions" <|
    (apiVersion.toList.map (.text "nifiApiVersion")) ++
      ExtensionType.documented.filterMap catalog.section?

/-- The text of the document. -/
def renderXml (catalog : Catalog) (apiVersion : Option String) : String :=
  renderDocument (catalog.toElement apiVersion)

end Catalog

end ExtensionCatalog
