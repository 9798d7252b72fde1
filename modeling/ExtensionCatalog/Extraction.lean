/-
**Extraction: the definition of a loaded class.**

Description, tags and restrictions come from markers on the class. The service contracts of a
controller service are the interfaces that it implements directly and that are assignable to the
contract of controller services; each is attributed to the module that defines it.

* `Survey`: from where, and by which settings, classes are described;
* `Survey.extract`: the definition of a class.
-/

import ExtensionCatalog.LoadingContext.Assignable
import ExtensionCatalog.Marker
import ExtensionCatalog.Settings.Discovery

namespace ExtensionCatalog

/-- A context, the files it reads, and the settings by which its classes are described. -/
structure Survey where
  context : LoadingContext
  tree : FileTree
  settings : DiscoverySettings

namespace Survey

/-- The marker of a type on a class. -/
def marker? (survey : Survey) (loaded : LoadedClass) (typeName : String) : Logged (Option Marker) :=
  Marker.find? survey.context survey.tree loaded typeName

def description (survey : Survey) (loaded : LoadedClass) : Logged (Option String) := do
  match ← survey.marker? loaded survey.settings.markers.description with
  | some marker => marker.text? "value"
  | none => return none

/-- The tags that the items of a marker are. -/
def tagsOf (marker : Marker) (items : List ElementValue) : Except Error (List String) :=
  items.mapM fun
    | .string tag => .ok tag
    | other => .error (marker.invalid (.tagNotString other.kind))

def tags (survey : Survey) (loaded : LoadedClass) : Logged (SortedSet String) := do
  match ← survey.marker? loaded survey.settings.markers.tags with
  | some marker =>
    let items ← marker.items "value"
    return .ofList (← tagsOf marker items)
  | none => return ∅

/-- The identifier of the permission that a restriction is about. -/
def permissionOf (survey : Survey) (restriction : Marker) : Except Error String :=
  match restriction.value? "requiredPermission" with
  | some (.constant _ constantName) => .ok (survey.settings.permissionIdentifier constantName)
  | some (.string identifier) => .ok identifier
  | some other => .error (restriction.invalid (.permissionNotConstant other.kind))
  | none => .error (restriction.invalid .permissionMissing)

/-- The permission and the explanation of an entry of the restricted marker. -/
def restrictionOf (survey : Survey) (loaded : LoadedClass) (restricted : Marker)
    (entry : ElementValue) : Logged (String × String) :=
  match entry.nested? with
  | none => .fail (restricted.invalid (.plainEntry entry.kind))
  | some mark => do
    if mark.typeName != survey.settings.markers.restriction then
      Logged.fail (restricted.invalid (.entryOfOtherType mark.typeName))
    let restriction ←
      Marker.view survey.context survey.tree loaded.definedBy loaded.name mark
    let explanation ← restriction.text? "explanation"
    return (← survey.permissionOf restriction, explanation.getD "")

/-- The restrictions of a class. A class with the marker has a general explanation, perhaps an empty
one; of two entries about one permission the later one counts. -/
def restrictions (survey : Survey) (loaded : LoadedClass) : Logged (Option Restrictions) := do
  match ← survey.marker? loaded survey.settings.markers.restricted with
  | none => return none
  | some restricted =>
    let general ← restricted.text? "value"
    let entries ← restricted.items "restrictions"
    let specific ← entries.mapM (survey.restrictionOf loaded restricted)
    return Restrictions.of? (some (general.getD "")) (.ofList specific)

/-- The module of the level that defines a class. -/
def definingModule (survey : Survey) (loaded : LoadedClass) : Option Coordinate := do
  (← survey.context.at? loaded.definedBy).level.module

/-- The service contract that an interface of a class stands for: it has to be held by some level,
assignable to `contract`, and defined by a module. -/
def serviceApi? (survey : Survey) (contract loaded : LoadedClass) (interface : String) :
    Logged (Option ServiceApi) := do
  match ← survey.context.loadIfPresent survey.tree loaded.definedBy interface with
  | none => return none
  | some type =>
    if ← survey.context.isAssignable survey.tree contract type then
      return (survey.definingModule type).map (ServiceApi.ofModule interface)
    else return none

/-- The service contracts that a class implements directly. -/
def serviceApis (survey : Survey) (loaded : LoadedClass) : Logged (SortedSet ServiceApi) := do
  match survey.settings.contract? .controllerService with
  | none => .fail (.unmappedExtensionType .controllerService)
  | some contractName =>
    let contract ← survey.context.load survey.tree contractName
    let found ← loaded.file.interfaces.mapM (survey.serviceApi? contract loaded)
    return .ofList found.reduceOption

/-- The definition of a class as an extension of a type. -/
def extract (survey : Survey) (loaded : LoadedClass) (extensionType : ExtensionType) :
    Logged Definition := do
  let description ← survey.description loaded
  let tags ← survey.tags loaded
  let restrictions ← survey.restrictions loaded
  let serviceApis ←
    if extensionType = .controllerService then survey.serviceApis loaded else pure ∅
  return { extensionType, name := loaded.name, description, tags, restrictions, serviceApis }

end Survey

end ExtensionCatalog
