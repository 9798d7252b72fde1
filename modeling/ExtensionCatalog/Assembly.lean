/-
**Assembling the loading context of a module.**

The chain of modules is walked first. The foundation is made for all of them: the framework
interface, its companion and the logging contract, in the versions that the modules depend on. Then
every module gets a level with what no level above it exposes.

* `Assembly.providedVersion`: the version of an artifact that the modules depend on;
* `Assembly.locate`: the file of an artifact;
* `Assembly.raise`: the levels of a chain of modules;
* `Assembly.build`: the loading context of a module.
-/

import ExtensionCatalog.LoadingContext.Basic
import ExtensionCatalog.ModuleChain

namespace ExtensionCatalog

open ModuleChain

/-- What loading contexts are assembled from. -/
structure Assembly extends Guide where
  resolver : ArtifactResolver
  tree : FileTree
  /-- What tells the levels of this assembly from those of others. -/
  chain : Nat

namespace Assembly

/-- The version in which a set has an artifact; of several the one of the least coordinate. -/
def versionIn (key : ArtifactKey) (set : DependencySet) : Option String :=
  (set.coordinates.find? key.holds).map (·.version)

/-- The version of an artifact in the dependencies of the first coordinate that has any; coordinates
whose dependencies cannot be told are passed over. -/
def versionThrough (provider : DependencyProvider) (key : ArtifactKey) :
    List Coordinate → Logged (Option String)
  | [] => return none
  | coordinate :: rest =>
    match provider.dependencies coordinate with
    | .ok set =>
      match versionIn key set with
      | some version => return some version
      | none => versionThrough provider key rest
    | .error _ => do
      .note .warn (s!"Unable to build dependency graph of {coordinate} when determining the " ++
        s!"version of {key}")
      versionThrough provider key rest

/-- The version of an artifact that modules depend on, directly or through something they depend
on. -/
def providedVersion (assembly : Assembly) (accumulated : DependencySet) (key : ArtifactKey) :
    Logged (Option String) :=
  match versionIn key accumulated with
  | some version => return some version
  | none => versionThrough assembly.provider key accumulated.coordinates

/-- The file of an artifact: the recorded one if it exists, or else the one that is resolved. -/
def locate (assembly : Assembly) (coordinate : Coordinate) (recorded : Option FilePath) :
    Except Error FilePath :=
  match (recorded.filter assembly.tree.exists?).or
      ((assembly.resolver coordinate).filter assembly.tree.exists?) with
  | some path => .ok path
  | none => .error (.unresolvableArtifact coordinate)

/-- The files of artifacts; the first one that has none counts as the fault. -/
def locateAll (assembly : Assembly) (records : List (Coordinate × Option FilePath)) :
    Except Error (SortedMap Coordinate FilePath) := do
  let located ← records.mapM fun (coordinate, recorded) => do
    return (coordinate, ← assembly.locate coordinate recorded)
  return .ofList located

/-- The artifacts of the foundation. -/
def foundationArtifacts (assembly : Assembly) (accumulated : DependencySet) :
    Logged (List Coordinate) := do
  let settings := assembly.foundation
  match ← assembly.providedVersion accumulated settings.api with
  | none => .fail (.missingApiDependency settings.api.group settings.api.artifact)
  | some version =>
    .note .info s!"Found a dependency on version {version} of {settings.api}"
    let shared := [Coordinate.jar settings.api.group settings.api.artifact version,
      Coordinate.jar settings.api.group settings.companion version]
    match ← assembly.providedVersion accumulated settings.logging with
    | some version =>
      return shared ++ [Coordinate.jar settings.logging.group settings.logging.artifact version]
    | none =>
      .note .warn (s!"No dependency on {settings.logging} found; the foundation context will " ++
        "not include it")
      return shared

/-- The context that all modules share. -/
def buildFoundation (assembly : Assembly) (accumulated : DependencySet) :
    Logged LoadingContext := do
  let provided ← assembly.foundationArtifacts accumulated
  let artifacts ← assembly.locateAll (provided.map fun coordinate =>
    (coordinate, (accumulated.find? coordinate).join))
  return .foundationOf assembly.tree assembly.chain none artifacts

/-- The context of a module below that of its parent. -/
def buildLevel (assembly : Assembly) (parent : LoadingContext) (step : ModuleStep) :
    Logged LoadingContext := do
  let missing := step.ownDependencies.toList.filter fun (coordinate, _) =>
    !parent.exposes coordinate
  let artifacts ← assembly.locateAll missing
  .note .info s!"Created loading context for {step.module} with {artifacts.size} artifacts"
  return parent.extend assembly.tree (some step.module) artifacts

/-- The context of a chain of modules: the foundation for all of them, and below it the levels of
the modules, that of the last one first. -/
def raise (assembly : Assembly) (steps : List ModuleStep) : Logged LoadingContext := do
  let foundation ← assembly.buildFoundation (accumulated steps)
  steps.reverse.foldlM assembly.buildLevel foundation

/-- The loading context of a module. -/
def build (assembly : Assembly) (module : Coordinate) : Logged LoadingContext := do
  .note .info s!"Building loading contexts for {module}"
  assembly.raise (← walk assembly.toGuide module)

end Assembly

end ExtensionCatalog
