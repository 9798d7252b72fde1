/-
**Reports: the documentation of one module.**

A report holds the definitions of every type that could be discovered and the failures of the
others. A module whose context cannot be built has an empty report: it may contain no extensions.

* `Assembly.report`: the report of a module;
* `DocumentationReport.steps`: the directories and documents of a report in some formats;
* `DocumentationReport.write`: writing them below a directory.
-/

import ExtensionCatalog.Assembly
import ExtensionCatalog.Definition.Document
import ExtensionCatalog.Definition.Properties
import ExtensionCatalog.Definition.Xml
import ExtensionCatalog.Discovery
import ExtensionCatalog.OutputFormat
import ExtensionCatalog.Performed

namespace ExtensionCatalog

/-- A type whose extensions could not be discovered. -/
structure DiscoveryFailure where
  extensionType : ExtensionType
  error : Error
deriving DecidableEq

/-- The documentation of one module. -/
structure DocumentationReport where
  module : Coordinate
  /-- The version of the framework interface in the foundation of the module. -/
  apiVersion : Option String
  /-- The definitions of the types that could be discovered. -/
  definitions : Catalog
  failures : List DiscoveryFailure

namespace DocumentationReport

/-- The report of a module without context. -/
def empty (module : Coordinate) : DocumentationReport := ⟨module, none, ∅, []⟩

/-- Whether the context was built and discovery ran. -/
def isDocumented (report : DocumentationReport) : Bool :=
  !report.definitions.isEmpty || !report.failures.isEmpty

def isSuccess (report : DocumentationReport) : Bool := report.failures.isEmpty

/-- The number of definitions of all types. -/
def count (report : DocumentationReport) : Nat := report.definitions.definitions.length

/-- The report with what the discovery of one type led to. -/
def add (report : DocumentationReport) (extensionType : ExtensionType) :
    Except Error (SortedSet Definition) → DocumentationReport
  | .ok definitions =>
    { report with definitions := report.definitions.insert extensionType definitions }
  | .error error => { report with failures := report.failures ++ [⟨extensionType, error⟩] }

end DocumentationReport

/-- What the discovery of one type led to: the definitions, or the error. -/
structure Discovered where
  extensionType : ExtensionType
  found : Logged (SortedSet Definition)

/-- The lines logged about the discovery of one type. -/
def Discovered.log (module : Coordinate) (discovered : Discovered) : List LogLine :=
  match discovered.found.outcome with
  | .ok _ => discovered.found.log
  | .error error =>
    discovered.found.log ++ [⟨.error, s!"Failed to discover {discovered.extensionType.name} " ++
      s!"extensions of {module}: {error.message}"⟩]

/-- Discover every documented type. -/
def Survey.discoverAll (survey : Survey) : List Discovered :=
  ExtensionType.documented.map fun extensionType => ⟨extensionType, survey.discover extensionType⟩

namespace Assembly

/-- The version of the framework interface that a context's foundation has. -/
def apiVersion (assembly : Assembly) (context : LoadingContext) : Option String :=
  (context.foundation.artifacts.keys.find? assembly.foundation.api.holds).map (·.version)

/-- The report of a module, and the lines logged on the way. -/
def report (assembly : Assembly) (settings : DiscoverySettings) (module : Coordinate) :
    List LogLine × DocumentationReport :=
  let built := assembly.build module
  match built.outcome with
  | .error _ =>
    let line := s!"Unable to create a loading context for documenting extensions of {module}. " ++
      "If this module contains any extensions, they will not be documented."
    (built.log ++ [⟨.warn, line⟩], .empty module)
  | .ok context =>
    let survey : Survey := ⟨context, assembly.tree, settings⟩
    let discovered := survey.discoverAll
    let report := discovered.foldl
      (fun report discovered => report.add discovered.extensionType discovered.found.outcome)
      { DocumentationReport.empty module with apiVersion := assembly.apiVersion context }
    (built.log ++ discovered.flatMap (Discovered.log module) ++
      [⟨.info, s!"Documented {report.count} extensions of {module}"⟩], report)

end Assembly

/-! ### Documents -/

/-- A change to the file tree, and whether its path is listed as written. -/
inductive DocumentStep where
  | directory (path : FilePath)
  | document (path : FilePath) (content : String)
deriving DecidableEq

namespace DocumentStep

/-- The change that a step makes. -/
def change : DocumentStep → FileTree.Change
  | directory path => .makeDirectories path
  | document path content => .write path (Text.Utf8.encode content.toList)

/-- The path of the document that a step writes. -/
def written? : DocumentStep → Option FilePath
  | directory _ => none
  | document path _ => some path

end DocumentStep

namespace DocumentationReport

/-- The steps that write a report in one format below the directory `META-INF`. -/
def formatSteps (report : DocumentationReport) (directory : FilePath) :
    OutputFormat → List DocumentStep
  | .xml => [.document (directory.joinText "extension-docs.xml")
      (report.definitions.renderXml report.apiVersion)]
  | .json => [.document (directory.joinText "extension-docs.json") report.definitions.renderJson]
  | .properties =>
    let documents := directory.joinText "docs"
    .directory documents :: report.definitions.definitions.map fun definition =>
      .document (documents.joinText (definition.name ++ ".properties")) definition.renderProperties

/-- The steps that write a report below an output directory; there are none if no type could be
discovered. -/
def steps (report : DocumentationReport) (output : FilePath) (formats : List OutputFormat) :
    List DocumentStep :=
  if report.definitions.isEmpty then []
  else
    let directory := output.joinText "META-INF"
    .directory directory :: formats.flatMap (report.formatSteps directory)

/-- Write a report below an output directory; the paths written, in order. Documents written before
a failure stay. -/
def write (report : DocumentationReport) (tree : FileTree) (output : FilePath)
    (formats : List OutputFormat) : Performed (Except Error (List FilePath)) :=
  let steps := report.steps output formats
  let changes := steps.map (·.change)
  let written := steps.filterMap (·.written?)
  if (tree.applyAll changes).2 then
    let line := s!"Wrote {written.length} documentation files for {report.module}"
    ⟨changes, if report.definitions.isEmpty then [] else [⟨.info, line⟩], .ok written⟩
  else ⟨changes, [], .error .file⟩

end DocumentationReport

end ExtensionCatalog
