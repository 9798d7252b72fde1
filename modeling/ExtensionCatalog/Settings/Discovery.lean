/-
**Settings of discovery: contracts, markers and permissions.**

* `mergeContracts`: configured contracts replace the default ones of their type;
* `DiscoverySettings.contract?`, `registrationPath`, `permissionIdentifier`: what the settings
  answer;
* `DiscoverySettings.ofDocument?`: the settings that a document gives, defaults for the rest.
-/

import ExtensionCatalog.Definition.Document
import ExtensionCatalog.Text.Blank

namespace ExtensionCatalog

open Document

/-- The interface that the extensions of a type are registered under. -/
structure Contract where
  extensionType : ExtensionType
  interface : String
deriving DecidableEq, Inhabited

namespace Contract

def ofDocument? (dialect : Dialect) (document : Document) : Option Contract := do
  let record ← document.record dialect 2
  return {
    extensionType := ← record.required "extension_type" 0 (ExtensionType.ofDocument? dialect)
    interface := ← record.required "interface" 1 readText }

end Contract

/-- The contracts that apply unless others are configured. -/
def defaultContracts : List Contract :=
  [⟨.processor, "org.apache.nifi.processor.Processor"⟩,
    ⟨.controllerService, "org.apache.nifi.controller.ControllerService"⟩,
    ⟨.reportingTask, "org.apache.nifi.reporting.ReportingTask"⟩]

/-- Put a contract in the place of the one of its type, or at the end if there is none. -/
def replaceContract (contract : Contract) : List Contract → List Contract
  | [] => [contract]
  | first :: rest =>
    if first.extensionType = contract.extensionType then contract :: rest
    else first :: replaceContract contract rest

/-- The default contracts with the configured ones put in their places. -/
def mergeContracts (configured : List Contract) : List Contract :=
  configured.foldl (fun contracts contract => replaceContract contract contracts) defaultContracts

/-- The annotation types that describe extensions. -/
structure MarkerNames where
  description : String := "org.apache.nifi.annotation.documentation.CapabilityDescription"
  tags : String := "org.apache.nifi.annotation.documentation.Tags"
  restricted : String := "org.apache.nifi.annotation.behavior.Restricted"
  restriction : String := "org.apache.nifi.annotation.behavior.Restriction"
deriving DecidableEq, Inhabited

namespace MarkerNames

def ofDocument? (dialect : Dialect) (document : Document) : Option MarkerNames := do
  let record ← document.record dialect 4
  let defaults : MarkerNames := {}
  return {
    description := ← record.withDefault "capability_description" 0 readText defaults.description
    tags := ← record.withDefault "tags" 1 readText defaults.tags
    restricted := ← record.withDefault "restricted" 2 readText defaults.restricted
    restriction := ← record.withDefault "restriction" 3 readText defaults.restriction }

end MarkerNames

/-- How extensions are found and described. -/
structure DiscoverySettings where
  /-- The directory of the registration resources. -/
  servicesDirectory : String := "META-INF/services/"
  contracts : List Contract := defaultContracts
  markers : MarkerNames := {}
  /-- Permission identifiers by the name of the enum constant. -/
  permissions : SortedMap String String := ∅
deriving Inhabited

namespace DiscoverySettings

/-- The interface of a type: the first one listed. -/
def contract? (settings : DiscoverySettings) (extensionType : ExtensionType) : Option String :=
  (settings.contracts.find? (·.extensionType == extensionType)).map (·.interface)

/-- The path of the registration resource of an interface. -/
def registrationPath (settings : DiscoverySettings) (interface : String) : String :=
  let directory := settings.servicesDirectory
  match directory.toList.getLast? with
  | none => interface
  | some '/' => directory ++ interface
  | some _ => directory ++ "/" ++ interface

/-- The identifier of a permission: the configured one, or the name of the constant in lower case
with dashes for underscores. -/
def permissionIdentifier (settings : DiscoverySettings) (constant : String) : String :=
  match settings.permissions.find? constant with
  | some identifier => identifier
  | none => String.ofList ((Text.asciiLowercase constant).toList.map fun c =>
      if c = '_' then '-' else c)

/-- The settings that a document gives; what it leaves out has its default. -/
def ofDocument? (dialect : Dialect) (document : Document) : Option DiscoverySettings := do
  let record ← document.record dialect 4
  let defaults : DiscoverySettings := {}
  let readContracts (document : Document) : Option (List Contract) := do
    return mergeContracts (← readList (Contract.ofDocument? dialect) document)
  return {
    servicesDirectory :=
      ← record.withDefault "services_directory" 0 readText defaults.servicesDirectory
    contracts := ← record.withDefault "contracts" 1 readContracts defaults.contracts
    markers := ← record.withDefault "markers" 2 (MarkerNames.ofDocument? dialect) defaults.markers
    permissions := ← record.withDefault "permissions" 3 readTextMap defaults.permissions }

end DiscoverySettings

end ExtensionCatalog
