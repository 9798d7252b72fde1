/-
**Settings of the foundation: what marks a module and what all modules share.**

* `FoundationSettings`: the settings and their defaults;
* `FoundationSettings.ofDocument?`: the settings that a document gives, defaults for the rest.
-/

import ExtensionCatalog.Coordinate
import ExtensionCatalog.Document

namespace ExtensionCatalog

open Document

/-- An artifact in any version. -/
structure ArtifactKey where
  group : String
  artifact : String
deriving DecidableEq, Inhabited

namespace ArtifactKey

instance : ToString ArtifactKey := ⟨fun key => key.group ++ ":" ++ key.artifact⟩

/-- Whether a coordinate names the artifact. -/
def holds (key : ArtifactKey) (coordinate : Coordinate) : Bool :=
  coordinate.isArtifact key.group key.artifact

def ofDocument? (dialect : Dialect) (document : Document) : Option ArtifactKey := do
  let record ← document.record dialect 2
  return {
    group := ← record.required "group" 0 readText
    artifact := ← record.required "artifact" 1 readText }

end ArtifactKey

/-- What marks a module, and which artifacts all modules share. -/
structure FoundationSettings where
  /-- The kind of artifact that is a module. -/
  moduleType : String := "nar"
  /-- The companion of the framework interface, of the same group and version. -/
  companion : String := "nifi-framework-api"
  /-- The framework interface that every module is compiled against. -/
  api : ArtifactKey := ⟨"org.apache.nifi", "nifi-api"⟩
  /-- The logging contract. -/
  logging : ArtifactKey := ⟨"org.slf4j", "slf4j-api"⟩
deriving DecidableEq, Inhabited

namespace FoundationSettings

/-- Whether a coordinate is of the kind that marks modules. -/
def isModule (settings : FoundationSettings) (coordinate : Coordinate) : Bool :=
  coordinate.isKind settings.moduleType

/-- The settings that a document gives; what it leaves out has its default. -/
def ofDocument? (dialect : Dialect) (document : Document) : Option FoundationSettings := do
  let record ← document.record dialect 4
  let defaults : FoundationSettings := {}
  return {
    moduleType := ← record.withDefault "module_type" 0 readText defaults.moduleType
    companion := ← record.withDefault "framework_api_artifact" 1 readText defaults.companion
    api := ← record.withDefault "api" 2 (ArtifactKey.ofDocument? dialect) defaults.api
    logging := ← record.withDefault "logging" 3 (ArtifactKey.ofDocument? dialect) defaults.logging }

end FoundationSettings

end ExtensionCatalog
