/-
**The files that a command line reads.**

Which files are read depends on what stands in others: the settings name the lockfile, the lockfile
the artifacts, registrations the classes, and classes their supertypes and annotation types. What
stands where documents are written decides whether they can be.

* `Request.reads`: the paths that a request may read or write, as far as the files known so far
  tell.
-/

import ExtensionCatalog.CommandLine.Run

namespace ExtensionCatalog

/-- The annotations in an array of annotations; there are none in another value. -/
def ElementValue.entries : ElementValue → List Annotation
  | .array values => values.filterMap (·.nested?)
  | _ => []

/-- The names of the types that a class file mentions where descriptions are looked for. -/
def ClassFile.mentionedTypes (file : ClassFile) : List String :=
  let values := file.annotations.flatMap (·.elements.map (·.2)) ++ file.defaults.values
  file.interfaces ++ file.superName.toList ++
    (file.annotations ++ values.flatMap (·.entries)).map (·.typeName)

/-- The path of a change, after the paths of what stands above it. -/
def FileTree.Change.trail : FileTree.Change → List FilePath
  | .makeDirectories path | .write path _ => path.trail

namespace Settings

/-- The coordinates that a foundation may have if its artifacts have some of these versions. -/
def foundationCandidates (settings : Settings) (versions : List String) : List Coordinate :=
  let foundation := settings.foundation
  versions.flatMap fun version =>
    [.jar foundation.api.group foundation.api.artifact version,
      .jar foundation.api.group foundation.companion version,
      .jar foundation.logging.group foundation.logging.artifact version]

/-- The paths at which the artifacts of contexts may stand. -/
def artifactPaths (settings : Settings) (lockfile : DependencyLockfile)
    (repository : LocalRepository) : List FilePath :=
  let records := lockfile.graphs.values.flatMap (·.toList)
  let coordinates := records.map (·.1)
  let versions : SortedSet String := .ofList (coordinates.map (·.version))
  records.filterMap (·.2) ++
    (coordinates ++ settings.foundationCandidates versions.toList).map repository.pathOf

/-- The names under which contents are looked for in artifacts at some paths. -/
def contentNames (settings : Settings) (tree : FileTree) (artifacts : List FilePath) :
    List String :=
  let interfaces := settings.discovery.contracts.map (·.interface)
  let registrations := interfaces.map settings.discovery.registrationPath
  let registered := artifacts.flatMap fun path =>
    registrations.flatMap fun name =>
      match ((ClassPathEntry.ofPath tree path).read tree name).outcome with
      | .ok (some content) => (registeredNames (Text.Utf8.decodeLossy content)).toList
      | _ => []
  let contents := tree.contents.flatMap fun content => content :: Archive.contents content
  let mentioned := contents.flatMap fun content =>
    match ClassFile.parse content with
    | .ok file => file.mentionedTypes
    | .error _ => []
  registrations ++ (interfaces ++ registered ++ mentioned).map ClassName.resourceName

/-- The paths that documenting a module may read. -/
def reads (settings : Settings) (tree : FileTree) (home : Option FilePath) : List FilePath :=
  let artifacts :=
    match settings.sources tree home with
    | .ok (lockfile, repository) => settings.artifactPaths lockfile repository
    | .error _ => []
  let names : SortedSet String := .ofList (settings.contentNames tree artifacts)
  settings.repository.lockfile.toList ++ artifacts ++
    (artifacts.filter tree.isDirectory).flatMap fun root =>
      names.toList.map (ClassPathEntry.below root)

end Settings

/-- The paths that a request may read or write, as far as the files known so far tell. -/
def Request.reads (request : Request) (tree : FileTree) (directories : UserDirectories) :
    List FilePath :=
  (request.settings.or directories.settingsFile).toList ++
    (match (request.loadSettings tree directories).outcome with
      | .ok settings => settings.reads tree directories.home
      | .error _ => []) ++
    (CommandLine.execute tree directories request).changes.flatMap (·.trail)

end ExtensionCatalog
