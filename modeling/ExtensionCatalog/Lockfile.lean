/-
**Lockfiles: recorded dependencies.**

A lockfile lists artifacts, each once, with their dependencies and perhaps the files of those.

* `DependencyLockfile.parse`: the lockfile of a text;
* `DependencyLockfile.provider`: a lockfile as a provider.
-/

import ExtensionCatalog.DependencyProvider
import ExtensionCatalog.FileTree
import ExtensionCatalog.Toml.Reader

namespace ExtensionCatalog

open Document

/-- The dependencies of artifacts, as recorded. -/
structure DependencyLockfile where
  graphs : SortedMap Coordinate DependencySet
deriving Inhabited

/-- A dependency as it is written in a lockfile. -/
structure LockedDependency where
  coordinate : String
  file : Option FilePath
deriving DecidableEq

/-- An artifact as it is written in a lockfile. -/
structure LockedArtifact where
  coordinate : String
  dependencies : List LockedDependency
deriving DecidableEq

namespace LockedDependency

def ofDocument? (document : Document) : Option LockedDependency := do
  let record ← document.record .toml 2
  return {
    coordinate := ← record.required "coordinate" 0 readText
    file := ← record.withDefault "file" 1 (readOptional readPath) none }

end LockedDependency

namespace LockedArtifact

def ofDocument? (document : Document) : Option LockedArtifact := do
  let record ← document.record .toml 2
  return {
    coordinate := ← record.required "coordinate" 0 readText
    dependencies :=
      ← record.withDefault "dependencies" 1 (readList LockedDependency.ofDocument?) [] }

/-- The artifacts that a lockfile document lists. -/
def listOfDocument? (document : Document) : Option (List LockedArtifact) := do
  let record ← document.record .toml 1
  record.withDefault "artifact" 0 (readList ofDocument?) []

end LockedArtifact

/-- The coordinate and the file of a dependency; a relative file stands below the base. -/
def LockedDependency.locate (base : FilePath) (dependency : LockedDependency) :
    Except Error (Coordinate × Option FilePath) := do
  return (← Coordinate.parse dependency.coordinate, dependency.file.map base.join)

namespace DependencyLockfile

instance : EmptyCollection DependencyLockfile := ⟨⟨∅⟩⟩

/-- Record the dependencies of an artifact in place of any recorded before. -/
def insert (lockfile : DependencyLockfile) (coordinate : Coordinate) (set : DependencySet) :
    DependencyLockfile :=
  ⟨lockfile.graphs.insert coordinate set⟩

def size (lockfile : DependencyLockfile) : Nat := lockfile.graphs.size

def isEmpty (lockfile : DependencyLockfile) : Bool := lockfile.graphs.isEmpty

/-- Record an artifact that is not recorded yet. -/
def add (base : FilePath) (lockfile : DependencyLockfile) (artifact : LockedArtifact) :
    Except Error DependencyLockfile := do
  let coordinate ← Coordinate.parse artifact.coordinate
  if lockfile.graphs.contains coordinate then
    throw (.invalidLockfile s!"artifact {coordinate} is listed more than once")
  let records ← artifact.dependencies.mapM (LockedDependency.locate base)
  return lockfile.insert coordinate (.ofList records)

/-- The lockfile of written artifacts; the first fault in their order counts. -/
def ofArtifacts (base : FilePath) (artifacts : List LockedArtifact) :
    Except Error DependencyLockfile :=
  artifacts.foldlM (add base) ∅

/-- The lockfile of a text; relative files stand below the base. -/
def parse (text : String) (base : FilePath) : Except Error DependencyLockfile :=
  match Toml.parse? text >>= LockedArtifact.listOfDocument? with
  | some artifacts => ofArtifacts base artifacts
  | none => .error .toml

/-- The lockfile of a file; relative files stand beside it. -/
def load (tree : FileTree) (path : FilePath) : Except Error DependencyLockfile :=
  match tree.readText? path with
  | some content => parse content (path.parent?.getD ⟨"."⟩)
  | none => .error .file

/-- The recorded dependencies of an artifact. -/
def dependencies (lockfile : DependencyLockfile) (coordinate : Coordinate) :
    Except Error DependencySet :=
  match lockfile.graphs.find? coordinate with
  | some set => .ok set
  | none => .error (.dependencyGraphBuildFailed coordinate "artifact is not listed in the lockfile")

/-- A lockfile as a provider of dependencies. -/
def provider (lockfile : DependencyLockfile) : DependencyProvider where
  dependencies := lockfile.dependencies
  listed := lockfile.graphs.keys
  mem_listed := by
    intro coordinate set answered
    unfold dependencies at answered
    split at answered
    · next found =>
      exact List.mem_map_of_mem ((SortedMap.find?_eq_some_iff ..).mp found)
    · cases answered

end DependencyLockfile

end ExtensionCatalog
