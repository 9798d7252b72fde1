/-
**What a run tells, and what it leaves behind.**

A run that can use its settings, its lockfile and its repository reaches the generation, and from
there on nothing can go wrong but writing. A module without context is documented as empty; of the
other types each is told of on its own; and the exit status tells whether all of them succeeded. The
paths of the documents stand on standard output among the lines of the log.

* `Request.FindsSettings`, `Request.fileSettings_eq_ok_iff`: when a settings file is found;
* `RunResult.filterMap_printed?_shown`: a filter of the log has no part in what is printed;
* `Preparation`: all that a run has when it reaches the generation;
* `Preparation.execute_eq`, `Preparation.execute_of_unprepared`: what the run comes to with it, and
  without;
* `Preparation.execute_cases`: a run writes, or it fails and only logs;
* `Preparation.Leads`: what a prepared run leads to;
* `CommandLine.run_document`: **the law of a run**.
-/

import ExtensionCatalog.CommandLine.Run
import ExtensionCatalog.Proofs.Outcome
import ExtensionCatalog.Proofs.Report.Partition
import ExtensionCatalog.Proofs.Settings.Load

namespace ExtensionCatalog

open FileTree

/-! ### Settings -/

namespace Settings

theorem sources_eq_ok_iff {settings : Settings} {tree : FileTree} {home : Option FilePath}
    {lockfile : DependencyLockfile} {repository : LocalRepository} :
    settings.sources tree home = .ok (lockfile, repository) ↔ ∃ path,
      settings.repository.lockfile = some path ∧
      DependencyLockfile.load tree path = .ok lockfile ∧
      settings.localRepository home = some repository.root := by
  unfold sources
  cases settings.repository.lockfile with
  | none => simp
  | some path =>
    dsimp only
    cases loaded : DependencyLockfile.load tree path with
    | error error => simp [loaded]
    | ok found =>
      cases settings.localRepository home with
      | none => simp
      | some root =>
        obtain ⟨root'⟩ := repository
        simp [loaded]

end Settings

namespace Request

variable {tree : FileTree} {directories : UserDirectories} {request : Request}

/-- The settings file of a request: the one it names, or else the usual one, which is made by some
changes if it is missing. -/
inductive SettingsFile (tree : FileTree) (directories : UserDirectories) (request : Request) :
    FilePath → List Change → Prop
  | named {path : FilePath} (given : request.settings = some path) :
      SettingsFile tree directories request path []
  | usual {path : FilePath} (absent : request.settings = none)
      (place : directories.settingsFile = some path) (present : tree.exists? path = true) :
      SettingsFile tree directories request path []
  | made {path : FilePath} (absent : request.settings = none)
      (place : directories.settingsFile = some path) (missing : tree.exists? path = false)
      (possible : (tree.applyAll (Settings.defaultFile path)).2 = true) :
      SettingsFile tree directories request path (Settings.defaultFile path)

/-- Whether the settings file is there, can be read and says something that a run can use. -/
def FindsSettings (tree : FileTree) (directories : UserDirectories) (request : Request)
    (changes : List Change) (found : Settings) : Prop :=
  ∃ path text, SettingsFile tree directories request path changes ∧
    (tree.applyAll changes).1.readText? path = some text ∧
    Settings.ofToml? text = some found ∧ found.validate = .ok ()

theorem SettingsFile.possible {path : FilePath} {changes : List Change}
    (file : SettingsFile tree directories request path changes) :
    (tree.applyAll changes).2 = true := by
  cases file with
  | made _ _ _ possible => exact possible
  | _ => rfl

/-- **Settings are loaded exactly if they are found**, with the changes that make their file. -/
theorem fileSettings_eq_ok_iff {changes : List Change} {found : Settings} :
    (request.fileSettings tree directories).changes = changes ∧
        (request.fileSettings tree directories).outcome = .ok found ↔
      FindsSettings tree directories request changes found := by
  have loads : FindsSettings tree directories request changes found ↔ ∃ path,
      SettingsFile tree directories request path changes ∧
        Settings.load (tree.applyAll changes).1 path = .ok found := by
    simp only [FindsSettings, Settings.load_eq_ok_iff, exists_and_left]
  rw [loads]
  constructor
  · intro finds
    unfold fileSettings Settings.loadDefault at finds
    cases given : request.settings with
    | some path =>
      rw [given] at finds
      obtain ⟨rfl, loaded⟩ := finds
      exact ⟨path, .named given, loaded⟩
    | none =>
      rw [given] at finds
      cases place : directories.settingsFile with
      | none =>
        rw [place] at finds
        cases finds.2
      | some path =>
        rw [place] at finds
        obtain ⟨⟨present, rfl⟩ | ⟨missing, rfl, possible⟩, loaded⟩ :=
          Settings.loadFrom_eq_ok_iff.mp finds
        · exact ⟨path, .usual given place present, loaded⟩
        · exact ⟨path, .made given place missing possible, loaded⟩
  · rintro ⟨path, file, loaded⟩
    unfold fileSettings Settings.loadDefault
    cases file with
    | named given =>
      rw [given]
      exact ⟨rfl, loaded⟩
    | usual absent place present =>
      rw [absent, place]
      exact Settings.loadFrom_eq_ok_iff.mpr ⟨.inl ⟨present, rfl⟩, loaded⟩
    | made absent place missing possible =>
      rw [absent, place]
      exact Settings.loadFrom_eq_ok_iff.mpr ⟨.inr ⟨missing, rfl, possible⟩, loaded⟩

end Request

/-! ### Standard output -/

namespace CommandLine

section Lines

variable (log : List LogLine) (texts : List String) (filter : LogLine → Bool)

theorem filterMap_printed?_logged :
    (log.map OutputLine.logged).filterMap (·.printed?) = [] :=
  List.filterMap_eq_nil_iff.mpr (by simp [OutputLine.printed?])

theorem filterMap_printed?_printed :
    (texts.map OutputLine.printed).filterMap (·.printed?) = texts := by
  rw [List.filterMap_map]
  exact List.filterMap_some

theorem filter_passes_logged :
    (log.map OutputLine.logged).filter (·.passes filter) =
      (log.filter filter).map OutputLine.logged :=
  List.filter_map

theorem filter_passes_printed :
    (texts.map OutputLine.printed).filter (·.passes filter) = texts.map OutputLine.printed :=
  List.filter_eq_self.mpr (by simp [OutputLine.passes])

end Lines

namespace RunResult

/-- Whatever is shown of the log, all that is printed stands on standard output, in order. -/
theorem filterMap_printed?_shown (result : RunResult) (filter : LogLine → Bool) :
    (result.shown filter).filterMap (·.printed?) = result.printed := by
  rw [shown, List.filterMap_filter, printed]
  congr 1
  funext line
  cases line with
  | logged line => exact ite_self _
  | printed text => rfl

end RunResult

end CommandLine

/-! ### Prepared runs -/

/-- What a run has when it reaches the generation. -/
structure Preparation (tree : FileTree) (directories : UserDirectories) (request : Request) where
  /-- The changes that make the settings file, if it is missing. -/
  changes : List Change
  /-- The settings of the file. -/
  found : Settings
  lockfilePath : FilePath
  lockfile : DependencyLockfile
  /-- The root of the local repository. -/
  root : FilePath
  finds : request.FindsSettings tree directories changes found
  usable : (request.override found).validate = .ok ()
  lockfileSet : (request.override found).repository.lockfile = some lockfilePath
  lockfileLoads : DependencyLockfile.load (tree.applyAll changes).1 lockfilePath = .ok lockfile
  rootKnown : (request.override found).localRepository directories.home = some root

namespace Preparation

variable {tree : FileTree} {directories : UserDirectories} {request : Request}

section Parts

variable (prepared : Preparation tree directories request)

/-- The files that the generation works with. -/
def files : FileTree := (tree.applyAll prepared.changes).1

/-- The settings of the run. -/
def settings : Settings := request.override prepared.found

def assembly : Assembly :=
  prepared.settings.assembly prepared.files prepared.lockfile ⟨prepared.root⟩ request.excluded 0

/-- The context of the module, if it can be built. -/
def context : Logged LoadingContext := prepared.assembly.build request.module

/-- How extensions are discovered in the context. -/
def survey (context : LoadingContext) : Survey :=
  ⟨context, prepared.files, prepared.settings.discovery⟩

def report : DocumentationReport :=
  (prepared.assembly.report prepared.settings.discovery request.module).2

/-- The writing of the report. -/
def writing : Performed (Except Error (List FilePath)) :=
  prepared.report.write prepared.files prepared.settings.output.directory
    prepared.settings.output.formats

/-- What documenting the module comes to. -/
def documented : Performed (Except RunFault Documentation) :=
  prepared.settings.document prepared.files directories.home request.module request.excluded 0

/-- What is logged until the writing ends. -/
def log : List LogLine := CommandLine.startLine :: prepared.documented.log

/-- Whether no documented type fails. -/
def NoneFails : Prop :=
  ∀ context, prepared.context.outcome = .ok context → ∀ extensionType ∈ ExtensionType.documented,
    ∃ definitions, ((prepared.survey context).discover extensionType).outcome = .ok definitions

theorem possible : (tree.applyAll prepared.changes).2 = true := by
  obtain ⟨path, text, file, -⟩ := prepared.finds
  exact file.possible

theorem tells {context : LoadingContext} (built : prepared.context.outcome = .ok context)
    (extensionType : ExtensionType) :
    (extensionType ∈ ExtensionType.documented → prepared.report.Tells extensionType
      ((prepared.survey context).discover extensionType).outcome) ∧
    (extensionType ∉ ExtensionType.documented → prepared.report.IsSilent extensionType) :=
  Assembly.report_tells built extensionType

theorem report_of_error {error : Error} (failed : prepared.context.outcome = .error error) :
    prepared.report = .empty request.module :=
  Assembly.report_of_error failed

/-- The report has no failures exactly if no type fails. -/
theorem failures_eq_nil_iff : prepared.report.failures = [] ↔ prepared.NoneFails := by
  rw [DocumentationReport.failures_eq_nil_iff]
  constructor
  · intro none context built extensionType documented
    have told := (prepared.tells built extensionType).1 documented
    exact told.failures_eq_nil_iff.mp (none extensionType)
  · intro all extensionType
    rcases Outcome.ok_or_error prepared.context.outcome with ⟨context, built⟩ | ⟨error, failed⟩
    · obtain ⟨told, silent⟩ := prepared.tells built extensionType
      by_cases documented : extensionType ∈ ExtensionType.documented
      · exact (told documented).failures_eq_nil_iff.mpr (all context built _ documented)
      · exact (silent documented).2
    · rw [prepared.report_of_error failed]
      rfl

/-! ### What a run comes to -/

theorem loadSettings_eq : (request.loadSettings tree directories).changes = prepared.changes ∧
    (request.loadSettings tree directories).outcome = .ok prepared.settings := by
  obtain ⟨changes, outcome⟩ := Request.fileSettings_eq_ok_iff.mpr prepared.finds
  refine ⟨changes, ?_⟩
  change ((request.fileSettings tree directories).outcome >>= _) = _
  rw [outcome]
  exact Settings.checked_eq_ok_iff.mpr ⟨prepared.usable, rfl⟩

theorem documented_eq : prepared.documented.changes = prepared.writing.changes ∧
    prepared.documented.outcome =
      match prepared.writing.outcome with
      | .ok paths => .ok ⟨prepared.report, paths⟩
      | .error _ => .error (.output prepared.settings.output.directory) := by
  have sources : prepared.settings.sources prepared.files directories.home =
      .ok (prepared.lockfile, ⟨prepared.root⟩) :=
    Settings.sources_eq_ok_iff.mpr ⟨prepared.lockfilePath, prepared.lockfileSet,
      prepared.lockfileLoads, prepared.rootKnown⟩
  unfold documented Settings.document
  rw [sources]
  exact ⟨rfl, rfl⟩

/-- A prepared run comes to what writing the report comes to. -/
theorem execute_eq :
    (CommandLine.execute tree directories request).changes =
        prepared.changes ++ prepared.writing.changes ∧
      (CommandLine.execute tree directories request).status =
        (match prepared.writing.outcome with
        | .ok _ => CommandLine.statusOf prepared.report
        | .error _ => .failure) ∧
      (CommandLine.execute tree directories request).output =
        match prepared.writing.outcome with
        | .ok paths => prepared.log.map .logged ++ (paths.map (·.text)).map .printed ++
            (CommandLine.closingLines prepared.report).map .logged
        | .error _ =>
          (prepared.log ++ [CommandLine.errorLine
            (RunFault.output prepared.settings.output.directory).message]).map .logged := by
  obtain ⟨made, loaded⟩ := prepared.loadSettings_eq
  obtain ⟨changes, outcome⟩ := prepared.documented_eq
  have files : (request.loadSettings tree directories).apply tree = prepared.files := by
    rw [Performed.apply, made, Preparation.files]
  unfold CommandLine.execute
  dsimp only
  rw [loaded]
  dsimp only
  rw [files, ← documented, outcome, made, changes]
  cases prepared.writing.outcome with
  | ok paths => exact ⟨rfl, rfl, rfl⟩
  | error error => exact ⟨rfl, rfl, rfl⟩

end Parts

/-- A run that cannot be prepared fails and only logs. -/
theorem execute_of_unprepared (none : ¬ Nonempty (Preparation tree directories request)) :
    (CommandLine.execute tree directories request).status = .failure ∧
      (CommandLine.execute tree directories request).printed = [] := by
  unfold CommandLine.execute
  dsimp only
  split
  · exact ⟨rfl, rfl⟩
  · next settings loaded =>
    split
    · exact ⟨rfl, CommandLine.filterMap_printed?_logged _⟩
    · next documentation documented =>
      exfalso
      obtain ⟨found, fromFile, checked⟩ := Outcome.bind_eq_ok_iff.mp loaded
      obtain ⟨usable, rfl⟩ := Settings.checked_eq_ok_iff.mp checked
      unfold Settings.document at documented
      split at documented
      · cases documented
      · next lockfile repository sources =>
        obtain ⟨path, set, loads, known⟩ := Settings.sources_eq_ok_iff.mp sources
        exact none ⟨{
          changes := (request.fileSettings tree directories).changes
          found := found
          lockfilePath := path
          lockfile := lockfile
          root := repository.root
          finds := Request.fileSettings_eq_ok_iff.mp ⟨rfl, fromFile⟩
          usable := usable
          lockfileSet := set
          lockfileLoads := loads
          rootKnown := known }⟩

/-- A run writes its documents, or it fails and only logs. -/
theorem execute_cases (tree : FileTree) (directories : UserDirectories) (request : Request) :
    (∃ (prepared : Preparation tree directories request) (paths : List FilePath),
      prepared.writing.outcome = .ok paths) ∨
    (CommandLine.execute tree directories request).status = .failure ∧
      (CommandLine.execute tree directories request).printed = [] := by
  rcases Classical.em (Nonempty (Preparation tree directories request)) with ⟨⟨prepared⟩⟩ | none
  · obtain ⟨-, status, output⟩ := prepared.execute_eq
    rcases Outcome.ok_or_error prepared.writing.outcome with ⟨paths, written⟩ | ⟨error, failed⟩
    · exact .inl ⟨prepared, paths, written⟩
    · rw [failed] at status output
      refine .inr ⟨status, ?_⟩
      rw [CommandLine.RunResult.printed, output, CommandLine.filterMap_printed?_logged]
  · exact .inr (execute_of_unprepared none)

/-! ### The law of a run -/

/-- What a run leads to that is prepared. -/
structure Leads (prepared : Preparation tree directories request)
    (result : CommandLine.RunResult) : Prop where
  /-- The run makes its settings file, if need be, and then writes. -/
  changes : result.changes = prepared.changes ++ prepared.writing.changes
  /-- Without context there is nothing to report, nothing is written, and the run succeeds. -/
  unbuilt : ∀ error, prepared.context.outcome = .error error →
    prepared.report.definitions = ∅ ∧ prepared.report.failures = [] ∧
      prepared.writing.changes = [] ∧ result.apply tree = prepared.files ∧
      result.status = .success
  /-- With a context, each documented type is told of on its own, and no other type is. -/
  built : ∀ context, prepared.context.outcome = .ok context → ∀ extensionType,
    (extensionType ∈ ExtensionType.documented → prepared.report.Tells extensionType
      ((prepared.survey context).discover extensionType).outcome) ∧
    (extensionType ∉ ExtensionType.documented → prepared.report.IsSilent extensionType)
  /-- If some type succeeds and writing does, the combined document of each format that is asked for
  holds the rendering of the definitions of the types that succeed. -/
  documents : ∀ extensionType definitions,
    prepared.report.definitions.find? extensionType = some definitions →
    ∀ paths, prepared.writing.outcome = .ok paths →
    ∀ format ∈ prepared.settings.output.formats, ∀ name text,
      prepared.report.combined? format = some (name, text) →
      (result.apply tree).read?
          (DocumentationReport.documentPath prepared.settings.output.directory name) =
        some (Text.Utf8.encode text.toList)
  /-- If writing succeeds, standard output has the paths of the files that are written, in order,
  and besides lines of the log nothing else. The paths stand behind what is logged until then and in
  front of what is said of the report. -/
  output : ∀ paths, prepared.writing.outcome = .ok paths →
    paths = prepared.writing.changes.filterMap (·.written?) ∧
    ∀ filter,
      (result.shown filter).filterMap (·.printed?) = paths.map (·.text) ∧
      result.shown filter = (prepared.log.filter filter).map .logged ++
        (paths.map (·.text)).map .printed ++
        ((CommandLine.closingLines prepared.report).filter filter).map .logged

/-- A prepared run that wrote its documents succeeds exactly if no type fails. -/
theorem status_eq_success_iff (prepared : Preparation tree directories request)
    {paths : List FilePath} (written : prepared.writing.outcome = .ok paths) :
    (CommandLine.execute tree directories request).status = .success ↔ prepared.NoneFails := by
  rw [prepared.execute_eq.2.1, written, ← prepared.failures_eq_nil_iff]
  dsimp only
  rw [CommandLine.statusOf, DocumentationReport.isSuccess]
  cases prepared.report.failures <;> simp

theorem apply_execute (prepared : Preparation tree directories request) :
    (CommandLine.execute tree directories request).apply tree =
      (prepared.files.applyAll prepared.writing.changes).1 := by
  rw [CommandLine.RunResult.apply, prepared.execute_eq.1, applyAll_append tree prepared.possible]
  rfl

theorem leads (prepared : Preparation tree directories request) :
    prepared.Leads (CommandLine.execute tree directories request) := by
  obtain ⟨changes, status, output⟩ := prepared.execute_eq
  obtain ⟨asked, outcome⟩ := prepared.report.write_eq prepared.files
    prepared.settings.output.directory prepared.settings.output.formats
  change prepared.writing.changes = _ at asked
  change prepared.writing.outcome = _ at outcome
  refine ⟨changes, ?unbuilt, fun context => prepared.tells, ?documents, ?output⟩
  case unbuilt =>
    intro error failed
    have empty := prepared.report_of_error failed
    have nothing : prepared.writing.changes = [] := by
      rw [asked]
      exact prepared.report.changes_of_isEmpty (by rw [empty]; rfl) _ _
    refine ⟨by rw [empty]; rfl, by rw [empty]; rfl, nothing, ?_, ?_⟩
    · rw [prepared.apply_execute, nothing]
      rfl
    · rw [status, outcome, ← asked, nothing]
      change CommandLine.statusOf prepared.report = .success
      rw [empty]
      rfl
  case documents =>
    intro extensionType definitions found paths written format requested name text combined
    rw [outcome] at written
    split at written
    · next possible =>
      rw [prepared.apply_execute, asked]
      exact (DocumentationReport.hasFile_combined found combined _ possible requested).read?
    · cases written
  case output =>
    intro paths written
    rw [written] at output
    refine ⟨?_, fun filter => ⟨?_, ?_⟩⟩
    · rw [outcome] at written
      split at written
      · rw [asked]
        exact (Except.ok.inj written).symm
      · cases written
    · rw [CommandLine.RunResult.filterMap_printed?_shown, CommandLine.RunResult.printed, output]
      simp only [List.filterMap_append, CommandLine.filterMap_printed?_logged,
        CommandLine.filterMap_printed?_printed, List.nil_append, List.append_nil]
    · rw [CommandLine.RunResult.shown, output]
      simp only [List.filter_append, CommandLine.filter_passes_logged,
        CommandLine.filter_passes_printed]

end Preparation

namespace CommandLine

/-- **The law of a run.** For every command line that asks for documentation, every file tree and
every user: the run succeeds exactly if it can be prepared (its settings file loads and is valid,
also with the options, its lockfile is set and loads, its repository is known), writing succeeds and
no documented type fails. A prepared run leads to what its report says, each type on its own. On the
standard output of a run that does not come to write, there is nothing but its log. -/
theorem run_document {arguments : List String} {request : Request}
    (accepted : Invocation.parse arguments = .document request) (tree : FileTree)
    (directories : UserDirectories) :
    ((run tree directories arguments).status = .success ↔
      ∃ (prepared : Preparation tree directories request) (paths : List FilePath),
        prepared.writing.outcome = .ok paths ∧ prepared.NoneFails) ∧
    (∀ prepared : Preparation tree directories request,
      prepared.Leads (run tree directories arguments)) ∧
    ((∀ (prepared : Preparation tree directories request) (paths : List FilePath),
      prepared.writing.outcome ≠ .ok paths) →
      ∀ filter, ((run tree directories arguments).shown filter).filterMap (·.printed?) = []) := by
  have executed : run tree directories arguments = execute tree directories request := by
    rw [run, accepted]
  rw [executed]
  refine ⟨?status, fun prepared => prepared.leads, ?silent⟩
  case status =>
    constructor
    · intro success
      rcases Preparation.execute_cases tree directories request with
        ⟨prepared, paths, written⟩ | ⟨failure, -⟩
      · exact ⟨prepared, paths, written, (prepared.status_eq_success_iff written).mp success⟩
      · rw [failure] at success
        cases success
    · rintro ⟨prepared, paths, written, none⟩
      exact (prepared.status_eq_success_iff written).mpr none
  case silent =>
    intro unwritten filter
    rcases Preparation.execute_cases tree directories request with
      ⟨prepared, paths, written⟩ | ⟨-, silent⟩
    · exact absurd written (unwritten prepared paths)
    · rw [RunResult.filterMap_printed?_shown, silent]

/-- The settings and the lockfile of a module without extensions, and empty archives for the
artifacts of its foundation. -/
def plainTree : FileTree where
  entries := .ofList [
    (["a"], .directory), (["a", "b"], .directory), (["a", "b", "2"], .directory),
    (["a", "b", "2", "b-2.jar"], .file []), (["a", "c"], .directory),
    (["a", "c", "2"], .directory), (["a", "c", "2", "c-2.jar"], .file []),
    (["l"], .file (Text.Utf8.encode ("[[artifact]]\ncoordinate='g:m:nar:1'\n" ++
      "[[artifact.dependencies]]\ncoordinate='a:b:2'").toList)),
    (["s"], .file (Text.Utf8.encode ("[foundation]\nframework_api_artifact='c'\n" ++
      "[foundation.api]\ngroup='a'\nartifact='b'").toList))]
  workingDirectory := []

def plainArguments : List String :=
  ["-c", "/s", "-l/l", "--repository=/", "g:m:nar:1", "-o", "/", "-fXML"]

def plainRequest : Request where
  module := ⟨"g", "m", "1", "nar", none⟩
  settings := some ⟨"/s"⟩
  lockfile := some ⟨"/l"⟩
  repository := some ⟨"/"⟩
  output := some ⟨"/"⟩
  formats := [.xml]

/-- The types of the module succeed with no definitions, so its document exists all the same. Its
path is on standard output behind the lines of the log; there is nothing else if the log is off. -/
theorem run_document_plain :
    Invocation.parse plainArguments = .document plainRequest ∧
    (run plainTree ⟨none, none⟩ plainArguments).status = .success ∧
    (run plainTree ⟨none, none⟩ plainArguments).shown (fun _ => false) =
      [.printed "/META-INF/extension-docs.xml"] ∧
    (∀ filter, ((run plainTree ⟨none, none⟩ plainArguments).shown filter).filterMap (·.printed?) =
      ["/META-INF/extension-docs.xml"]) ∧
    ∃ prepared : Preparation plainTree ⟨none, none⟩ plainRequest,
      prepared.NoneFails ∧ prepared.report.failures = [] ∧
      (∃ definitions, prepared.report.definitions.find? .processor = some definitions) ∧
      ((run plainTree ⟨none, none⟩ plainArguments).apply plainTree).read?
          (DocumentationReport.documentPath ⟨"/"⟩ "extension-docs.xml") =
        some (Text.Utf8.encode
          (prepared.report.definitions.renderXml prepared.report.apiVersion).toList) := by
  have accepted : Invocation.parse plainArguments = .document plainRequest := by decide +kernel
  have computed :
      (run plainTree ⟨none, none⟩ plainArguments).status = .success ∧
      (run plainTree ⟨none, none⟩ plainArguments).shown (fun _ => false) =
        [.printed "/META-INF/extension-docs.xml"] := by decide +kernel
  obtain ⟨law, leads, -⟩ := run_document accepted plainTree ⟨none, none⟩
  obtain ⟨prepared, paths, written, none⟩ := law.mp computed.1
  have leads := leads prepared
  obtain ⟨listed, output⟩ := leads.output paths written
  have path : paths.map (·.text) = ["/META-INF/extension-docs.xml"] := by
    rw [← (output fun _ => false).1, computed.2]
    rfl
  refine ⟨accepted, computed.1, computed.2, fun filter => (output filter).1.trans path,
    prepared, none, prepared.failures_eq_nil_iff.mpr none, ?_⟩
  rcases Outcome.ok_or_error prepared.context.outcome with ⟨context, built⟩ | ⟨error, failed⟩
  · obtain ⟨definitions, found⟩ := none context built .processor (by decide)
    have told := (leads.built context built .processor).1 (by decide)
    rw [found] at told
    exact ⟨⟨definitions, told.1⟩, leads.documents .processor definitions told.1 paths written .xml
      (List.mem_singleton_self _) "extension-docs.xml" _ rfl⟩
  · obtain ⟨-, -, nothing, -⟩ := leads.unbuilt error failed
    rw [listed, nothing] at path
    cases path

end CommandLine

end ExtensionCatalog
