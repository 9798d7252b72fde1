/-
**Discovery: the extensions that are registered.**

A registration resource is named after the interface of a contract and lists class names, one on a
line. The resources of all levels count together.

* `registeredNames`: the class names that a registration lists;
* `Survey.classNames`: the class names registered for a type;
* `Survey.discover`: their definitions; the first class that cannot be described is the fault.
-/

import ExtensionCatalog.Extraction
import ExtensionCatalog.Text.Lines
import ExtensionCatalog.Text.Utf8

namespace ExtensionCatalog

/-- The class name on a line of a registration: blank lines and comments have none. -/
def registeredName? (line : List Char) : Option String :=
  match Text.trim line with
  | [] => none
  | '#' :: _ => none
  | name => some (String.ofList name)

/-- The class names that a registration lists. -/
def registeredNames (text : List Char) : SortedSet String :=
  .ofList ((Text.lines text).filterMap registeredName?)

namespace Survey

/-- The class names registered for a type at any level. -/
def classNames (survey : Survey) (extensionType : ExtensionType) : Logged (SortedSet String) :=
  match survey.settings.contract? extensionType with
  | none => .fail (.unmappedExtensionType extensionType)
  | some interface => do
    let path := survey.settings.registrationPath interface
    let resources ← survey.context.findResources survey.tree path
    return resources.foldl (fun names resource =>
      names.union (registeredNames (Text.Utf8.decodeLossy resource.content))) ∅

/-- The definition of a registered class. -/
def describe (survey : Survey) (extensionType : ExtensionType) (className : String) :
    Logged Definition :=
  Logged.mapError (.extensionDefinition extensionType className) do
    survey.extract (← survey.context.load survey.tree className) extensionType

/-- The definitions of all classes registered for a type. -/
def discover (survey : Survey) (extensionType : ExtensionType) :
    Logged (SortedSet Definition) := do
  let names ← survey.classNames extensionType
  let definitions : SortedSet Definition :=
    .ofList (← names.toList.mapM (survey.describe extensionType))
  if !names.isEmpty then
    .note .info s!"Discovered {definitions.size} {extensionType.name} extensions"
  return definitions

end Survey

end ExtensionCatalog
