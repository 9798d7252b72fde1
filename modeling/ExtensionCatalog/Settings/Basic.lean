/-
**The settings of a run.**

* `Settings.ofToml?`: the settings of a text, defaults for what it leaves out;
* `Settings.validate`: whether a run can use the settings, and the first reason why not;
* `Settings.localRepository`: where artifacts are looked for;
* `Settings.defaultText`: the settings file that is written when there is none.
-/

import ExtensionCatalog.OutputFormat
import ExtensionCatalog.Settings.Discovery
import ExtensionCatalog.Settings.Foundation
import ExtensionCatalog.Toml.Reader

namespace ExtensionCatalog

open Document

/-- Where artifacts and their dependencies come from. -/
structure RepositorySettings where
  /-- The root of the local repository. -/
  root : Option FilePath := none
  /-- The lockfile with the dependencies of each module. -/
  lockfile : Option FilePath := none
deriving DecidableEq, Inhabited

/-- Where documentation goes. -/
structure OutputSettings where
  directory : FilePath := ⟨"target"⟩
  formats : List OutputFormat := [.xml]
deriving DecidableEq, Inhabited

/-- The settings of a run. -/
structure Settings where
  logLevel : String := "info"
  repository : RepositorySettings := {}
  foundation : FoundationSettings := {}
  discovery : DiscoverySettings := {}
  output : OutputSettings := {}
deriving Inhabited

/-- Why a run cannot use its settings. -/
inductive SettingsFault where
  | unknownLogLevel (level : String)
  | blankField (field : String)
  | mappedTwice (extensionType : ExtensionType)
  | blankContract (extensionType : ExtensionType)
  | unmapped (extensionType : ExtensionType)
  | noFormats
deriving DecidableEq

def logLevels : List String := ["trace", "debug", "info", "warn", "error"]

/-- The text shown for a fault of the settings. -/
def SettingsFault.message : SettingsFault → String
  | unknownLogLevel level =>
    "Invalid log_level: " ++ level ++ ". Must be one of: " ++ String.intercalate ", " logLevels
  | blankField field => s!"{field} must not be empty"
  | mappedTwice extensionType =>
    s!"Extension type {extensionType.name} is mapped to more than one contract"
  | blankContract extensionType =>
    s!"Extension type {extensionType.name}: contract interface must not be empty"
  | unmapped extensionType => s!"Extension type {extensionType.name} has no contract interface"
  | noFormats => "output.formats must name at least one format"

namespace RepositorySettings

def ofDocument? (dialect : Dialect) (document : Document) : Option RepositorySettings := do
  let record ← document.record dialect 2
  return {
    root := ← record.optional "local" 0 readPath
    lockfile := ← record.optional "lockfile" 1 readPath }

end RepositorySettings

namespace OutputSettings

def ofDocument? (dialect : Dialect) (document : Document) : Option OutputSettings := do
  let record ← document.record dialect 2
  let defaults : OutputSettings := {}
  return {
    directory := ← record.withDefault "directory" 0 readPath defaults.directory
    formats :=
      ← record.withDefault "formats" 1 (readList (OutputFormat.ofDocument? dialect))
        defaults.formats }

end OutputSettings

namespace Settings

/-- The settings that a document gives; what it leaves out has its default. -/
def ofDocument? (dialect : Dialect) (document : Document) : Option Settings := do
  let record ← document.record dialect 5
  let defaults : Settings := {}
  return {
    logLevel := ← record.withDefault "log_level" 0 readText defaults.logLevel
    repository :=
      ← record.withDefault "repository" 1 (RepositorySettings.ofDocument? dialect) {}
    foundation :=
      ← record.withDefault "foundation" 2 (FoundationSettings.ofDocument? dialect) {}
    discovery := ← record.withDefault "discovery" 3 (DiscoverySettings.ofDocument? dialect) {}
    output := ← record.withDefault "output" 4 (OutputSettings.ofDocument? dialect) {} }

/-- The settings of a TOML text. -/
def ofToml? (text : String) : Option Settings := do
  ofDocument? .toml (← Toml.parse? text)

/-- The fields that must not be blank. -/
def requiredTexts (settings : Settings) : List (String × String) :=
  [("foundation.module_type", settings.foundation.moduleType),
    ("foundation.api.group", settings.foundation.api.group),
    ("foundation.api.artifact", settings.foundation.api.artifact),
    ("foundation.framework_api_artifact", settings.foundation.companion)]

/-- Check contracts in order; `mapped` are the types of those before. -/
def checkContracts : List ExtensionType → List Contract → Except SettingsFault Unit
  | _, [] => .ok ()
  | mapped, contract :: rest =>
    if contract.extensionType ∈ mapped then .error (.mappedTwice contract.extensionType)
    else if Text.isBlankText contract.interface then .error (.blankContract contract.extensionType)
    else checkContracts (contract.extensionType :: mapped) rest

/-- Whether a run can use the settings. -/
def validate (settings : Settings) : Except SettingsFault Unit := do
  if settings.logLevel ∉ logLevels then throw (.unknownLogLevel settings.logLevel)
  for (field, content) in settings.requiredTexts do
    if Text.isBlankText content then throw (.blankField field)
  checkContracts [] settings.discovery.contracts
  for extensionType in ExtensionType.documented do
    if (settings.discovery.contract? extensionType).isNone then throw (.unmapped extensionType)
  if settings.output.formats.isEmpty then throw .noFormats

/-- The root of the local repository: the configured one, or the usual one below the home
directory, if that is known. -/
def localRepository (settings : Settings) (home : Option FilePath) : Option FilePath :=
  settings.repository.root.or (home.map fun home => (home.joinText ".m2").joinText "repository")

/-- The settings file that is written when there is none. -/
def defaultText : String :=
"# nar-docgen Configuration
# This file configures how module loading contexts are built and how
# extension documentation is generated.

# Log level: trace, debug, info, warn, error
# Default: \"info\"
log_level = \"info\"

[repository]
# Root of the local Maven-layout repository used to resolve artifacts
# If not specified, defaults to ~/.m2/repository
# local = \"/path/to/repository\"

# Dependency lockfile listing the dependency closure of each module
# lockfile = \"/path/to/nar-deps.lock\"

[foundation]
# Artifact type that marks a module
module_type = \"nar\"

# Companion artifact resolved at the framework API's version
framework_api_artifact = \"nifi-framework-api\"

[foundation.api]
group = \"org.apache.nifi\"
artifact = \"nifi-api\"

[foundation.logging]
group = \"org.slf4j\"
artifact = \"slf4j-api\"

[discovery]
# Directory holding registration resources
services_directory = \"META-INF/services/\"

# Permission identifiers by enum constant; unlisted constants map to their
# lower-case, dash-separated form
# [discovery.permissions]
# READ_FILESYSTEM = \"read-filesystem\"

[output]
# Directory below which META-INF/ is written
directory = \"target\"

# Formats to write: xml, properties, json
formats = [\"xml\"]
"

end Settings

end ExtensionCatalog
