/-
**Which properties documents are written.**

The definitions of all types share one directory, and a document is named after the class alone. The
types are written in order, so of several definitions of one class the last one is in the file in
the end. Within a type a class is defined once; it is a class that is documented under two types
whose file is written twice.

* `propertiesPath`, `propertiesPath_inj`: the file of a class, and of no other one;
* `FileTree.hasFile_of_last`: the last write under a name counts;
* `IsTypedOnce`: no class is documented under two types;
* `Assembly.nodup_definitions`, `Assembly.eq_of_name_eq`: a report has a definition once, and a
  class once in a type;
* `Assembly.nodup_written_iff`: when the written paths differ from each other;
* `Assembly.write_properties`: **what the properties files hold**, and when none is written twice.
-/

import ExtensionCatalog.Proofs.Assembly.Foundation
import ExtensionCatalog.Proofs.Report.Confinement
import Mathlib.Data.List.Nodup

namespace ExtensionCatalog

/-! ### The last write -/

/-- The last place of a member of a list. -/
theorem exists_last_of_mem {α : Type} [DecidableEq α] {item : α} {items : List α}
    (member : item ∈ items) :
    ∃ before behind, items = before ++ item :: behind ∧ item ∉ behind := by
  induction items with
  | nil => cases member
  | cons first rest hypothesis =>
    by_cases later : item ∈ rest
    · obtain ⟨before, behind, rfl, last⟩ := hypothesis later
      exact ⟨first :: before, behind, rfl, last⟩
    · obtain rfl := (List.mem_cons.mp member).resolve_right later
      exact ⟨[], rest, rfl, later⟩

/-- **The last write under a name counts.** -/
theorem FileTree.hasFile_of_last {tree : FileTree} {path : FilePath} {content : Bytes}
    {first rest : List Change}
    (possible : (tree.applyAll (first ++ .write path content :: rest)).2 = true)
    (only : WritesOnly rest path content) :
    (tree.applyAll (first ++ .write path content :: rest)).1.HasFile path content := by
  induction first generalizing tree with
  | nil =>
    rw [List.nil_append, FileTree.applyAll] at possible ⊢
    dsimp only at possible ⊢
    split at possible
    · next made =>
      rw [if_pos made]
      exact (hasFile_write made).applyAll only
    · cases possible
  | cons change more hypothesis =>
    rw [List.cons_append, FileTree.applyAll] at possible ⊢
    dsimp only at possible ⊢
    split at possible
    · next made =>
      rw [if_pos made]
      exact hypothesis possible
    · cases possible

namespace DocumentationReport

/-! ### Paths -/

/-- The path of the properties of a class below an output directory. -/
def propertiesPath (output : FilePath) (className : String) : FilePath :=
  (documentPath output "docs").joinText (className ++ ".properties")

theorem lastSegment?_propertiesPath {output : FilePath} {className : String}
    (plain : IsPlain className) :
    (propertiesPath output className).lastSegment? = some (className ++ ".properties") := by
  have component := (IsDocument.properties plain).isComponent (className ++ ".properties") (by simp)
  obtain ⟨base, below, -⟩ := (documentPath output "docs").segments_joinText component.1
  rw [FilePath.lastSegment?, propertiesPath, below, List.getLast?_concat]

/-- **Different classes have different files.** -/
theorem propertiesPath_inj {output : FilePath} {className other : String}
    (plain : IsPlain className) (plain' : IsPlain other)
    (same : (propertiesPath output className).lastSegment? =
      (propertiesPath output other).lastSegment?) : className = other := by
  rw [lastSegment?_propertiesPath plain, lastSegment?_propertiesPath plain', Option.some.injEq,
    ← String.toList_inj, String.toList_append, String.toList_append] at same
  exact String.toList_inj.mp (List.append_cancel_right same)

/-- The last letter of the names of documents in a format. -/
def lastLetter : OutputFormat → Char
  | .xml => 'l'
  | .json => 'n'
  | .properties => 's'

theorem lastLetter_injective : Function.Injective lastLetter := by
  intro format other same
  cases format <;> cases other <;> first | rfl | cases same

theorem lastLetter_ne_slash (format : OutputFormat) : lastLetter format ≠ '/' := by
  cases format <;> decide

variable {report : DocumentationReport}

/-- The paths of the documents of a report in a format. -/
def documentPaths (report : DocumentationReport) (output : FilePath) (format : OutputFormat) :
    List FilePath :=
  (report.formatSteps (output.joinText "META-INF") format).filterMap (·.written?)

theorem formatSteps_properties (report : DocumentationReport) (directory : FilePath) :
    report.formatSteps directory .properties = .directory (directory.joinText "docs") ::
      report.definitions.definitions.map (propertiesStep (directory.joinText "docs")) := rfl

theorem documentPaths_properties (report : DocumentationReport) (output : FilePath) :
    report.documentPaths output .properties =
      report.definitions.definitions.map fun definition =>
        propertiesPath output definition.name := by
  rw [documentPaths, formatSteps_properties, List.filterMap_cons_none rfl, List.filterMap_map,
    ← List.filterMap_eq_map]
  rfl

theorem getLast?_of_mem_documentPaths {output path : FilePath} {format : OutputFormat}
    (member : path ∈ report.documentPaths output format) :
    path.text.toList.getLast? = some (lastLetter format) := by
  cases format with
  | xml =>
    rw [List.mem_singleton.mp member]
    exact getLast?_joinText _ rfl
  | json =>
    rw [List.mem_singleton.mp member]
    exact getLast?_joinText _ rfl
  | properties =>
    rw [documentPaths_properties] at member
    obtain ⟨definition, -, rfl⟩ := List.mem_map.mp member
    refine getLast?_joinText _ ?_
    rw [String.toList_append, List.getLast?_append]
    rfl

theorem not_isEmpty_of_mem {definition : Definition}
    (member : definition ∈ report.definitions.definitions) :
    ¬ report.definitions.isEmpty = true := by
  intro empty
  rw [Catalog.definitions, SortedMap.values, List.isEmpty_iff.mp empty] at member
  cases member

/-- The paths that are written are those of the documents in each format. -/
theorem paths_eq (some : ¬ report.definitions.isEmpty = true) (output : FilePath)
    (formats : List OutputFormat) :
    (report.changes output formats).filterMap (·.written?) =
      formats.flatMap (report.documentPaths output) := by
  have written : FileTree.Change.written? ∘ DocumentStep.change = DocumentStep.written? := by
    funext step
    cases step <;> rfl
  rw [changes, List.filterMap_map, written, steps, if_neg some, List.filterMap_cons_none rfl,
    List.filterMap_flatMap]
  rfl

/-- A report that is written has had all its changes made, and its paths are those of the writes. -/
theorem changes_of_written {tree : FileTree} {output : FilePath} {formats : List OutputFormat}
    {paths : List FilePath} (written : (report.write tree output formats).outcome = .ok paths) :
    (tree.applyAll (report.changes output formats)).2 = true ∧
      paths = (report.changes output formats).filterMap (·.written?) := by
  rw [(report.write_eq tree output formats).2] at written
  by_cases possible : (tree.applyAll (report.changes output formats)).2 = true
  · rw [if_pos possible, Except.ok.injEq] at written
    exact ⟨possible, written.symm⟩
  · rw [if_neg possible] at written
    cases written

theorem propertiesPath_mem_documentPaths (output : FilePath) {definition : Definition}
    (member : definition ∈ report.definitions.definitions) :
    propertiesPath output definition.name ∈ report.documentPaths output .properties := by
  rw [documentPaths_properties]
  exact List.mem_map.mpr ⟨definition, member, rfl⟩

/-- Formats that are asked for once each have different paths, if their own are. -/
theorem nodup_documentPaths_iff {output : FilePath} {formats : List OutputFormat}
    (requested : .properties ∈ formats) (once : formats.Nodup) :
    (formats.flatMap (report.documentPaths output)).Nodup ↔
      (report.documentPaths output .properties).Nodup := by
  rw [List.nodup_flatMap]
  constructor
  · intro distinct
    exact distinct.1 _ requested
  · intro distinct
    refine ⟨fun format _ => ?_, once.imp fun {format other} apart => ?_⟩
    · cases format with
      | properties => exact distinct
      | xml => exact List.nodup_singleton _
      | json => exact List.nodup_singleton _
    · intro path member member'
      have ends := getLast?_of_mem_documentPaths member
      rw [getLast?_of_mem_documentPaths member', Option.some.injEq] at ends
      exact apart (lastLetter_injective ends.symm)

/-- No class is documented under two types. -/
def IsTypedOnce (definitions : List Definition) : Prop :=
  ∀ definition ∈ definitions, ∀ other ∈ definitions, definition.name = other.name →
    definition.extensionType = other.extensionType

/-! ### The last definition of a class -/

/-- The last document that is written for a class. -/
theorem exists_changes (output : FilePath) {formats : List OutputFormat}
    (requested : .properties ∈ formats) {earlier later : List Definition} {definition : Definition}
    (split : report.definitions.definitions = earlier ++ definition :: later) :
    ∃ first, ∃ behind : List OutputFormat, .properties ∉ behind ∧ report.changes output formats =
      first ++ (propertiesStep (documentPath output "docs") definition).change ::
        ((later.map (propertiesStep (documentPath output "docs")) ++
          behind.flatMap (report.formatSteps (output.joinText "META-INF"))).map (·.change)) := by
  obtain ⟨before, behind, rfl, last⟩ := exists_last_of_mem requested
  have member : definition ∈ report.definitions.definitions := by
    rw [split]
    simp
  have some := not_isEmpty_of_mem member
  let directory := output.joinText "META-INF"
  let write := propertiesStep (documentPath output "docs")
  let front := DocumentStep.directory directory :: before.flatMap (report.formatSteps directory) ++
    .directory (documentPath output "docs") :: earlier.map write
  have whole : report.steps output (before ++ .properties :: behind) =
      front ++ write definition ::
        (later.map write ++ behind.flatMap (report.formatSteps directory)) := by
    rw [steps, if_neg some]
    simp [front, write, formatSteps_properties, split, directory, documentPath]
  exact ⟨front.map (·.change), behind, last, by
    rw [changes, whole, List.map_append, List.map_cons]⟩

/-- **The file of a class holds the properties of its last definition.** -/
theorem hasFile_properties {tree : FileTree} {output : FilePath} {formats : List OutputFormat}
    (requested : .properties ∈ formats)
    (plain : ∀ definition ∈ report.definitions.definitions, IsPlain definition.name)
    (possible : (tree.applyAll (report.changes output formats)).2 = true)
    {earlier later : List Definition} {definition : Definition}
    (split : report.definitions.definitions = earlier ++ definition :: later)
    (last : definition.name ∉ later.map (·.name)) :
    (tree.applyAll (report.changes output formats)).1.HasFile
      (propertiesPath output definition.name)
      (Text.Utf8.encode definition.renderProperties.toList) := by
  obtain ⟨first, behind, absent, whole⟩ := exists_changes output requested split
  rw [whole] at possible ⊢
  refine FileTree.hasFile_of_last possible fun path content member same => ?_
  have own := plain definition (by simp [split])
  obtain ⟨step, inside, made⟩ := List.mem_map.mp member
  rcases List.mem_append.mp inside with inside | inside
  · obtain ⟨other, further, rfl⟩ := List.mem_map.mp inside
    cases made
    have equal := propertiesPath_inj (plain other (by simp [split, further])) own same
    exact absurd (List.mem_map.mpr ⟨other, further, equal⟩) last
  · obtain ⟨format, asked, inside⟩ := List.mem_flatMap.mp inside
    -- A combined document ends in a letter of its own.
    have listed : path ∈ report.documentPaths output format := by
      refine List.mem_filterMap.mpr ⟨step, inside, ?_⟩
      cases step <;> cases made
      rfl
    have here : propertiesPath output definition.name ∈ report.documentPaths output .properties :=
      propertiesPath_mem_documentPaths output (by simp [split])
    have letter := FilePath.eq_of_lastSegment (getLast?_of_mem_documentPaths here) (by decide)
      (getLast?_of_mem_documentPaths listed) (lastLetter_ne_slash format) same
    rw [lastLetter_injective letter] at asked
    exact absurd asked absent

end DocumentationReport

namespace Assembly

open DocumentationReport

variable {assembly : Assembly} {settings : DiscoverySettings} {module : Coordinate}

section OfType

variable {extensionType : ExtensionType} {definitions : SortedSet Definition}
  (found : (assembly.report settings module).2.definitions.find? extensionType = some definitions)
  {definition other : Definition} (member : definition ∈ definitions)

include found member

theorem type_of_reported : definition.extensionType = extensionType := by
  obtain ⟨context, discovered⟩ := exists_discovered found
  obtain ⟨names, -, listed, -⟩ := Survey.discover_eq_ok_iff.mp discovered
  obtain ⟨name, -, described⟩ := (Survey.mem_discovered_iff discovered listed).mp member
  exact Survey.type_of_described (Survey.describe_eq_ok.mp described)

/-- A type has one definition of a class. -/
theorem eq_of_name_eq (member' : other ∈ definitions) (same : definition.name = other.name) :
    definition = other := by
  obtain ⟨context, discovered⟩ := exists_discovered found
  obtain ⟨names, -, listed, -⟩ := Survey.discover_eq_ok_iff.mp discovered
  obtain ⟨name, -, described⟩ := (Survey.mem_discovered_iff discovered listed).mp member
  obtain ⟨name', -, described'⟩ := (Survey.mem_discovered_iff discovered listed).mp member'
  rw [← Survey.name_of_describe described, same, Survey.name_of_describe described',
    described'] at described
  exact (Except.ok.inj described).symm

end OfType

/-- A report has a definition once. -/
theorem nodup_definitions : (assembly.report settings module).2.definitions.definitions.Nodup := by
  rw [Catalog.definitions, List.nodup_flatMap, SortedMap.values, List.pairwise_map]
  constructor
  · intro definitions _
    refine definitions.ascending.imp fun ordered same => ?_
    rw [same, Std.ReflOrd.compare_self] at ordered
    cases ordered
  · refine List.Pairwise.imp_of_mem (fun {first second} member member' ordered => ?_)
      (SortedMap.ascending _)
    intro definition inside inside'
    have type := type_of_reported ((SortedMap.find?_eq_some_iff ..).mpr member) inside
    have type' := type_of_reported ((SortedMap.find?_eq_some_iff ..).mpr member') inside'
    rw [← type, ← type', Std.ReflOrd.compare_self] at ordered
    cases ordered

/-- **Two definitions have one file exactly if a class is documented under two types.** -/
theorem nodup_propertiesPaths_iff (output : FilePath) :
    ((assembly.report settings module).2.documentPaths output .properties).Nodup ↔
      IsTypedOnce (assembly.report settings module).2.definitions.definitions := by
  rw [documentPaths_properties]
  constructor
  · intro distinct definition member other member' same
    have equal := List.inj_on_of_nodup_map distinct member member'
      (congrArg (propertiesPath output) same)
    rw [equal]
  · intro once
    refine List.Nodup.map_on (fun definition member other member' same => ?_) nodup_definitions
    have named := propertiesPath_inj (isPlain_of_reported member) (isPlain_of_reported member')
      (congrArg _ same)
    have typed := once definition member other member' named
    obtain ⟨type, definitions, found, inside⟩ := Catalog.mem_definitions_iff.mp member
    obtain ⟨type', definitions', found', inside'⟩ := Catalog.mem_definitions_iff.mp member'
    rw [type_of_reported found inside, type_of_reported found' inside'] at typed
    rw [← typed, found] at found'
    cases found'
    exact eq_of_name_eq found inside inside' named

/-- Written paths differ from each other exactly if no class is documented under two types. -/
theorem nodup_written_iff {output : FilePath} {formats : List OutputFormat}
    (requested : .properties ∈ formats) (once : formats.Nodup) :
    (((assembly.report settings module).2.changes output formats).filterMap (·.written?)).Nodup ↔
      IsTypedOnce (assembly.report settings module).2.definitions.definitions := by
  by_cases empty : (assembly.report settings module).2.definitions.isEmpty = true
  · have nothing : (assembly.report settings module).2.definitions.definitions = [] :=
      List.eq_nil_iff_forall_not_mem.mpr fun definition member => not_isEmpty_of_mem member empty
    rw [nothing, changes, steps, if_pos empty]
    exact iff_of_true List.nodup_nil fun _ member => absurd member List.not_mem_nil
  · rw [paths_eq empty, nodup_documentPaths_iff requested once]
    exact nodup_propertiesPaths_iff output

/-- With every class under one type, a report has one definition for a class. -/
theorem nodup_names
    (once : IsTypedOnce (assembly.report settings module).2.definitions.definitions) :
    ((assembly.report settings module).2.definitions.definitions.map (·.name)).Nodup := by
  have distinct := (nodup_propertiesPaths_iff ⟨""⟩).mpr once
  rw [documentPaths_properties] at distinct
  exact List.Nodup.of_map (propertiesPath ⟨""⟩) (by rwa [List.map_map])

/-- **The properties files of a module.** If a report of a module is written with properties, there
is a path for every definition, and its file holds the properties of the last definition of the
class, in the order of the types. Without a format asked for twice, no path is written twice exactly
if no class is documented under two types, and then every definition is in its file. -/
theorem write_properties (assembly : Assembly) (settings : DiscoverySettings) (module : Coordinate)
    (tree : FileTree) (output : FilePath) (formats : List OutputFormat)
    (requested : .properties ∈ formats) (paths : List FilePath)
    (written : ((assembly.report settings module).2.write tree output formats).outcome =
      .ok paths) :
    let report := (assembly.report settings module).2
    let definitions := report.definitions.definitions
    let after := (report.write tree output formats).apply tree
    (∀ definition ∈ definitions, propertiesPath output definition.name ∈ paths) ∧
    (∀ earlier definition later, definitions = earlier ++ definition :: later →
      definition.name ∉ later.map (·.name) →
        after.read? (propertiesPath output definition.name) =
          some (Text.Utf8.encode definition.renderProperties.toList)) ∧
    (formats.Nodup → (paths.Nodup ↔ IsTypedOnce definitions)) ∧
    (IsTypedOnce definitions → ∀ definition ∈ definitions,
      after.read? (propertiesPath output definition.name) =
        some (Text.Utf8.encode definition.renderProperties.toList)) := by
  intro report definitions after
  obtain ⟨possible, outcome⟩ := changes_of_written written
  have plain : ∀ definition ∈ definitions, IsPlain definition.name :=
    fun definition member => isPlain_of_reported member
  have last (earlier : List Definition) (definition : Definition) (later : List Definition)
      (split : definitions = earlier ++ definition :: later)
      (absent : definition.name ∉ later.map (·.name)) :
      after.read? (propertiesPath output definition.name) =
        some (Text.Utf8.encode definition.renderProperties.toList) := by
    have there := hasFile_properties requested plain possible split absent
    rw [← (report.write_eq tree output formats).1] at there
    exact there.read?
  refine ⟨fun definition member => ?listed, last, fun once => ?distinct,
    fun typed definition member => ?own⟩
  case listed =>
    rw [outcome, paths_eq (not_isEmpty_of_mem member)]
    exact List.mem_flatMap.mpr
      ⟨.properties, requested, propertiesPath_mem_documentPaths output member⟩
  case distinct =>
    rw [outcome]
    exact nodup_written_iff requested once
  case own =>
    obtain ⟨earlier, later, split⟩ := List.append_of_mem member
    refine last earlier definition later split fun again => ?_
    have names : (definitions.map (·.name)).Nodup := nodup_names typed
    rw [split, List.map_append, List.map_cons, List.nodup_middle, List.nodup_cons] at names
    exact names.1 (List.mem_append_right _ again)

/-- A library with a class that is registered as a processor and as a reporting task. -/
def twofoldTree : FileTree where
  entries := .ofList [(["lib"], .directory), (["lib", "C.class"],
      .file (LoadingContext.lettersClass 67 [])),
    (["lib", "META-INF"], .directory), (["lib", "META-INF", "services"], .directory),
    (["lib", "META-INF", "services", "P"], .file [67]),
    (["lib", "META-INF", "services", "R"], .file [67])]
  workingDirectory := []

/-- A module that depends on the library and on the framework interface. -/
def twofoldLockfile : DependencyLockfile :=
  (∅ : DependencyLockfile).insert leafModule
    (.ofList [(.jar "org.apache.nifi" "nifi-api" "2", none), (sharedLibrary, none)])

def twofoldAssembly : Assembly where
  provider := twofoldLockfile.provider
  foundation := {}
  excluded := []
  resolver := fun coordinate => some ⟨if coordinate = sharedLibrary then "/lib" else "/"⟩
  tree := twofoldTree
  chain := 0

def twofoldSettings : DiscoverySettings where
  contracts := [⟨.processor, "P"⟩, ⟨.controllerService, "S"⟩, ⟨.reportingTask, "R"⟩]

/-- Both types are documented, with the one class in each of them. -/
theorem report_twofold : (twofoldAssembly.report twofoldSettings leafModule).2.definitions =
    .ofList [(.processor, .ofList [.bare .processor "C"]), (.controllerService, ∅),
      (.reportingTask, .ofList [.bare .reportingTask "C"])] := by
  have computed : ((twofoldAssembly.buildWithin 2 leafModule).bind (·.outcome.toOption)).map
      (fun context => ExtensionType.documented.map fun extensionType =>
        (Survey.discover ⟨context, twofoldAssembly.tree, twofoldSettings⟩
          extensionType).outcome.toOption) =
      some [some (.ofList [.bare .processor "C"]), some ∅,
        some (.ofList [.bare .reportingTask "C"])] := by
    decide +kernel
  obtain ⟨context, made, each⟩ := Option.map_eq_some_iff.mp computed
  have built := outcome_build_of_buildWithin
    (show twofoldAssembly.provider.listed.length < 2 by decide +kernel) made
  simp only [ExtensionType.documented, List.map_cons, List.map_nil, List.cons.injEq] at each
  obtain ⟨processors, services, tasks, -⟩ := each
  rw [report_of_ok built, addAll, ExtensionType.documented]
  simp only [List.foldl_cons, List.foldl_nil, Outcome.eq_ok_of_toOption processors,
    Outcome.eq_ok_of_toOption services, Outcome.eq_ok_of_toOption tasks]
  rfl

/-- Writing the two types succeeds. -/
theorem write_twofold : ((twofoldAssembly.report twofoldSettings leafModule).2.write twofoldTree
    ⟨"/o"⟩ [.properties]).outcome =
      .ok [⟨"/o/META-INF/docs/C.properties"⟩, ⟨"/o/META-INF/docs/C.properties"⟩] := by
  have asked : (twofoldAssembly.report twofoldSettings leafModule).2.changes ⟨"/o"⟩ [.properties] =
      [.makeDirectories ⟨"/o/META-INF"⟩, .makeDirectories ⟨"/o/META-INF/docs"⟩,
        .write ⟨"/o/META-INF/docs/C.properties"⟩ [],
        .write ⟨"/o/META-INF/docs/C.properties"⟩ []] := by
    rw [changes, steps]
    dsimp only
    rw [List.flatMap_singleton, formatSteps_properties, report_twofold]
    decide +kernel
  have possible : (twofoldTree.applyAll
      ((twofoldAssembly.report twofoldSettings leafModule).2.changes ⟨"/o"⟩ [.properties])).2 =
        true := by
    rw [asked]
    decide +kernel
  rw [((twofoldAssembly.report twofoldSettings leafModule).2.write_eq _ _ _).2, if_pos possible,
    asked]
  rfl

/-- The file of the class holds the properties of the reporting task, the later one of the types. -/
theorem write_properties_twofold :
    .properties ∈ [OutputFormat.properties] ∧ ∃ paths,
      ((twofoldAssembly.report twofoldSettings leafModule).2.write twofoldTree ⟨"/o"⟩
        [.properties]).outcome = .ok paths ∧
      (((twofoldAssembly.report twofoldSettings leafModule).2.write twofoldTree ⟨"/o"⟩
          [.properties]).apply twofoldTree).read? (propertiesPath ⟨"/o"⟩ "C") =
        some (Text.Utf8.encode (Definition.bare .reportingTask "C").renderProperties.toList) := by
  obtain ⟨-, last, -⟩ := write_properties twofoldAssembly twofoldSettings leafModule twofoldTree
    ⟨"/o"⟩ [.properties] (List.mem_singleton_self _) _ write_twofold
  refine ⟨List.mem_singleton_self _, _, write_twofold, ?_⟩
  exact last [.bare .processor "C"] (.bare .reportingTask "C") [] (by rw [report_twofold]; rfl)
    (by decide)

/-- A path is written twice. -/
theorem properties_path_repeated :
    ¬ ∀ (assembly : Assembly) (settings : DiscoverySettings) (module : Coordinate)
      (tree : FileTree) (output : FilePath) (paths : List FilePath),
      ((assembly.report settings module).2.write tree output [.properties]).outcome = .ok paths →
        paths.Nodup := by
  intro distinct
  have once := distinct _ _ _ _ _ _ write_twofold
  exact absurd once (by decide)

end Assembly

end ExtensionCatalog
