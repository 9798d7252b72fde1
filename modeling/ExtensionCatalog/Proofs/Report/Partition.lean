/-
**A report tells of each type on its own.**

The types are discovered one after the other, and what one of them comes to is added to what is
there: a set of definitions, or a failure. Adding one type never touches another, so in the end each
documented type is told of once, with its own outcome, whatever became of the others.

* `Tells`, `IsSilent`: what a report says of a type, and that it says nothing;
* `Tells.outcome_of_find?`, `Tells.outcome_of_mem`: the outcome of a type, read off the report;
* `AgreesOn`: two reports say the same of a type;
* `tells_add`, `agreesOn_add`: one type is added, and the others are left alone;
* `tells_addAll`: **types that are added are told**, each on its own;
* `Assembly.report_of_error`, `Assembly.report_tells`: **the report of a module**;
* `combined?`, `mem_formatSteps`: the documents of whole reports, and what else is written;
* `hasFile_combined`: **a combined document holds its rendering** in the end.
-/

import ExtensionCatalog.Proofs.FileTree.Changes
import ExtensionCatalog.Report

namespace ExtensionCatalog

namespace DocumentationReport

variable {report : DocumentationReport} {extensionType other : ExtensionType}

/-- What a report says of a type that comes to an outcome: either the definitions are among its
definitions, or the error is the one failure of the type, and never both. -/
def Tells (report : DocumentationReport) (extensionType : ExtensionType) :
    Except Error (SortedSet Definition) → Prop
  | .ok definitions => report.definitions.find? extensionType = some definitions ∧
      report.failures.filter (·.extensionType == extensionType) = []
  | .error error => report.definitions.find? extensionType = none ∧
      report.failures.filter (·.extensionType == extensionType) = [⟨extensionType, error⟩]

/-- Whether a report says nothing of a type. -/
def IsSilent (report : DocumentationReport) (extensionType : ExtensionType) : Prop :=
  report.definitions.find? extensionType = none ∧
    report.failures.filter (·.extensionType == extensionType) = []

/-- A type that is told of has no failures exactly if it succeeds. -/
theorem Tells.failures_eq_nil_iff {outcome : Except Error (SortedSet Definition)}
    (tells : report.Tells extensionType outcome) :
    report.failures.filter (·.extensionType == extensionType) = [] ↔
      ∃ definitions, outcome = .ok definitions := by
  cases outcome with
  | ok definitions => exact iff_of_true tells.2 ⟨definitions, rfl⟩
  | error error =>
    rw [tells.2]
    simp

/-- The definitions that a report has of a type are what the type comes to. -/
theorem Tells.outcome_of_find? {outcome : Except Error (SortedSet Definition)}
    (tells : report.Tells extensionType outcome) {definitions : SortedSet Definition}
    (found : report.definitions.find? extensionType = some definitions) :
    outcome = .ok definitions := by
  cases outcome with
  | ok others =>
    rw [tells.1] at found
    rw [Option.some.inj found]
  | error error =>
    rw [tells.1] at found
    cases found

theorem mem_failures_of_type {failure : DiscoveryFailure} (member : failure ∈ report.failures) :
    failure ∈ report.failures.filter (·.extensionType == failure.extensionType) :=
  List.mem_filter.mpr ⟨member, beq_self_eq_true failure.extensionType⟩

/-- The failure that a report has of a type is what the type comes to. -/
theorem Tells.outcome_of_mem {failure : DiscoveryFailure}
    {outcome : Except Error (SortedSet Definition)}
    (tells : report.Tells failure.extensionType outcome) (member : failure ∈ report.failures) :
    outcome = .error failure.error := by
  have own := mem_failures_of_type member
  cases outcome with
  | ok definitions =>
    rw [tells.2] at own
    cases own
  | error error =>
    rw [tells.2, List.mem_singleton] at own
    rw [own]

/-- A report has no failures exactly if it has none of any type. -/
theorem failures_eq_nil_iff : report.failures = [] ↔ ∀ extensionType,
    report.failures.filter (·.extensionType == extensionType) = [] := by
  constructor
  · intro none extensionType
    rw [none]
    rfl
  · intro each
    rw [List.eq_nil_iff_forall_not_mem]
    intro failure member
    have own := mem_failures_of_type member
    rw [each] at own
    cases own

/-- Two reports say the same of a type. -/
structure AgreesOn (report report' : DocumentationReport) (extensionType : ExtensionType) :
    Prop where
  definitions : report.definitions.find? extensionType =
    report'.definitions.find? extensionType
  failures : report.failures.filter (·.extensionType == extensionType) =
    report'.failures.filter (·.extensionType == extensionType)

namespace AgreesOn

variable {report' : DocumentationReport} (agrees : report.AgreesOn report' extensionType)

include agrees

theorem trans {report'' : DocumentationReport} (further : report'.AgreesOn report'' extensionType) :
    report.AgreesOn report'' extensionType :=
  ⟨agrees.definitions.trans further.definitions, agrees.failures.trans further.failures⟩

theorem tells {outcome : Except Error (SortedSet Definition)}
    (tells : report'.Tells extensionType outcome) : report.Tells extensionType outcome := by
  cases outcome <;> exact ⟨agrees.definitions.trans tells.1, agrees.failures.trans tells.2⟩

theorem isSilent (silent : report'.IsSilent extensionType) : report.IsSilent extensionType :=
  ⟨agrees.definitions.trans silent.1, agrees.failures.trans silent.2⟩

end AgreesOn

/-! ### One type -/

/-- Adding a type leaves what is said of the others. -/
theorem agreesOn_add (apart : extensionType ≠ other)
    (outcome : Except Error (SortedSet Definition)) :
    (report.add other outcome).AgreesOn report extensionType := by
  cases outcome with
  | ok definitions =>
    refine ⟨?_, rfl⟩
    rw [add, SortedMap.find?_insert, if_neg (by rwa [Std.compare_eq_iff_eq])]
  | error error =>
    refine ⟨rfl, ?_⟩
    rw [add, List.filter_append]
    simp [Ne.symm apart]

/-- What is added is told. -/
theorem tells_add (silent : report.IsSilent extensionType)
    (outcome : Except Error (SortedSet Definition)) :
    (report.add extensionType outcome).Tells extensionType outcome := by
  obtain ⟨undefined, unfailed⟩ := silent
  cases outcome with
  | ok definitions =>
    refine ⟨?_, unfailed⟩
    rw [add, SortedMap.find?_insert, if_pos (by rw [Std.compare_eq_iff_eq])]
  | error error =>
    refine ⟨undefined, ?_⟩
    rw [add, List.filter_append, unfailed]
    simp

/-! ### All types -/

section All

variable (outcome : ExtensionType → Except Error (SortedSet Definition))

/-- The report with what some types come to. -/
def addAll (report : DocumentationReport) (types : List ExtensionType) : DocumentationReport :=
  types.foldl (fun report extensionType => report.add extensionType (outcome extensionType)) report

/-- Adding types leaves what is said of the others. -/
theorem agreesOn_addAll {types : List ExtensionType} (absent : extensionType ∉ types) :
    (report.addAll outcome types).AgreesOn report extensionType := by
  induction types generalizing report with
  | nil => exact ⟨rfl, rfl⟩
  | cons first rest hypothesis =>
    rw [List.mem_cons, not_or] at absent
    obtain ⟨apart, later⟩ := absent
    exact (hypothesis later).trans (agreesOn_add apart _)

/-- **Each type that is added once is told with its own outcome.** -/
theorem tells_addAll {types : List ExtensionType} (distinct : types.Nodup)
    (silent : ∀ extensionType ∈ types, report.IsSilent extensionType)
    (member : extensionType ∈ types) :
    (report.addAll outcome types).Tells extensionType (outcome extensionType) := by
  induction types generalizing report with
  | nil => cases member
  | cons first rest hypothesis =>
    obtain ⟨absent, distinct⟩ := List.nodup_cons.mp distinct
    obtain ⟨silentFirst, silentRest⟩ := List.forall_mem_cons.mp silent
    rcases List.mem_cons.mp member with rfl | later
    · exact (agreesOn_addAll outcome absent).tells (tells_add silentFirst _)
    · refine hypothesis distinct (fun other inside => ?_) later
      refine (agreesOn_add ?_ _).isSilent (silentRest other inside)
      rintro rfl
      exact absent inside

end All

theorem isSilent_empty (module : Coordinate) (apiVersion : Option String) :
    IsSilent { empty module with apiVersion } extensionType :=
  ⟨rfl, rfl⟩

end DocumentationReport

namespace Assembly

variable {assembly : Assembly} {settings : DiscoverySettings} {module : Coordinate}

/-- A module whose context cannot be built has an empty report. -/
theorem report_of_error {error : Error} (failed : (assembly.build module).outcome = .error error) :
    (assembly.report settings module).2 = .empty module := by
  unfold Assembly.report
  dsimp only
  rw [failed]

theorem report_of_ok {context : LoadingContext}
    (built : (assembly.build module).outcome = .ok context) :
    (assembly.report settings module).2 =
      { DocumentationReport.empty module with
        apiVersion := assembly.apiVersion context }.addAll
          (fun extensionType =>
            (Survey.discover ⟨context, assembly.tree, settings⟩ extensionType).outcome)
          ExtensionType.documented := by
  unfold Assembly.report
  dsimp only
  rw [built]
  rfl

/-- **The report of a module tells of each documented type what its discovery alone comes to**, and
of no other type. -/
theorem report_tells {context : LoadingContext}
    (built : (assembly.build module).outcome = .ok context) (extensionType : ExtensionType) :
    (extensionType ∈ ExtensionType.documented →
      (assembly.report settings module).2.Tells extensionType
        (Survey.discover ⟨context, assembly.tree, settings⟩ extensionType).outcome) ∧
    (extensionType ∉ ExtensionType.documented →
      (assembly.report settings module).2.IsSilent extensionType) := by
  rw [report_of_ok built]
  constructor
  · exact DocumentationReport.tells_addAll _ (by decide)
      fun _ _ => DocumentationReport.isSilent_empty _ _
  · intro undocumented
    exact (DocumentationReport.agreesOn_addAll _ undocumented).isSilent
      (DocumentationReport.isSilent_empty _ _)

end Assembly

/-! ### Documents -/

/-- The path that a change writes a file at. -/
def FileTree.Change.written? : FileTree.Change → Option FilePath
  | makeDirectories _ => none
  | write path _ => some path

namespace DocumentationReport

variable (report : DocumentationReport)

/-- The name and the rendering of the document of a whole report in a format that has one. -/
def combined? : OutputFormat → Option (String × String)
  | .xml => some ("extension-docs.xml", report.definitions.renderXml report.apiVersion)
  | .json => some ("extension-docs.json", report.definitions.renderJson)
  | .properties => none

/-- The path of a document below an output directory. -/
def documentPath (output : FilePath) (name : String) : FilePath :=
  (output.joinText "META-INF").joinText name

/-- The changes that write a report below an output directory. -/
def changes (output : FilePath) (formats : List OutputFormat) : List FileTree.Change :=
  (report.steps output formats).map (·.change)

/-- Writing asks for these changes, and it succeeds if they are possible, with the paths of the
files among them. -/
theorem write_eq (tree : FileTree) (output : FilePath) (formats : List OutputFormat) :
    (report.write tree output formats).changes = report.changes output formats ∧
      (report.write tree output formats).outcome =
        if (tree.applyAll (report.changes output formats)).2 then
          .ok ((report.changes output formats).filterMap (·.written?))
        else .error .file := by
  have paths : (report.changes output formats).filterMap (·.written?) =
      (report.steps output formats).filterMap (·.written?) := by
    rw [changes, List.filterMap_map]
    congr 1
    funext step
    cases step <;> rfl
  rw [paths]
  unfold write
  dsimp only
  change _ ∧ _ = if (tree.applyAll ((report.steps output formats).map (·.change))).2 then _ else _
  split <;> exact ⟨rfl, rfl⟩

theorem changes_of_isEmpty (nothing : report.definitions = ∅) (output : FilePath)
    (formats : List OutputFormat) : report.changes output formats = [] := by
  rw [changes, steps, nothing]
  rfl

theorem getLast?_joinText (path : FilePath) {name : String} {c : Char}
    (ends : name.toList.getLast? = some c) :
    (path.joinText name).text.toList.getLast? = some c := by
  have grown : ∃ before, (path.joinText name).text = before ++ name := by
    unfold FilePath.joinText FilePath.join
    split
    · exact ⟨"", by simp⟩
    · split
      · exact ⟨path.text, rfl⟩
      · exact ⟨path.text ++ "/", rfl⟩
  obtain ⟨before, whole⟩ := grown
  rw [whole, String.toList_append, List.getLast?_append, ends]
  rfl

theorem steps_of_found {extensionType : ExtensionType} {definitions : SortedSet Definition}
    (found : report.definitions.find? extensionType = some definitions) (output : FilePath)
    (formats : List OutputFormat) : report.steps output formats =
      .directory (output.joinText "META-INF") ::
        formats.flatMap (report.formatSteps (output.joinText "META-INF")) := by
  have some : ¬ report.definitions.isEmpty = true := by
    intro empty
    have nothing : report.definitions.toList = [] := List.isEmpty_iff.mp empty
    have member := (SortedMap.find?_eq_some_iff ..).mp found
    rw [nothing] at member
    cases member
  rw [steps, if_neg some]

theorem formatSteps_of_combined {directory : FilePath} {format : OutputFormat}
    {name text : String} (combined : report.combined? format = some (name, text)) :
    report.formatSteps directory format = [.document (directory.joinText name) text] := by
  cases format <;> cases combined <;> rfl

/-- What is written in a format is its combined document, or else the properties of a definition. -/
theorem mem_formatSteps {directory path : FilePath} {format : OutputFormat} {text : String}
    (member : .document path text ∈ report.formatSteps directory format) :
    (∃ name, report.combined? format = some (name, text) ∧ path = directory.joinText name) ∨
      path.text.toList.getLast? = some 's' := by
  cases format with
  | properties =>
    rcases List.mem_cons.mp member with other | written
    · cases other
    · obtain ⟨definition, -, equal⟩ := List.mem_map.mp written
      cases equal
      refine .inr (getLast?_joinText _ ?_)
      rw [String.toList_append, List.getLast?_append]
      rfl
  | xml =>
    cases List.mem_singleton.mp member
    exact .inl ⟨_, rfl, rfl⟩
  | json =>
    cases List.mem_singleton.mp member
    exact .inl ⟨_, rfl, rfl⟩

/-- The combined documents end in different letters, and none of them like properties do. -/
theorem exists_getLast?_combined {format : OutputFormat} {name text : String}
    (combined : report.combined? format = some (name, text)) :
    ∃ c, name.toList.getLast? = some c ∧ c ≠ '/' ∧ c ≠ 's' ∧
      ∀ other name' text', report.combined? other = some (name', text') →
        name'.toList.getLast? = some c → text' = text := by
  cases format with
  | properties => cases combined
  | xml =>
    cases combined
    refine ⟨'l', rfl, by decide, by decide, fun other name' text' combined' ends => ?_⟩
    cases other <;> cases combined'
    · rfl
    · cases ends
  | json =>
    cases combined
    refine ⟨'n', rfl, by decide, by decide, fun other name' text' combined' ends => ?_⟩
    cases other <;> cases combined'
    · cases ends
    · rfl

section Combined

variable {report} {extensionType : ExtensionType} {definitions : SortedSet Definition}
  (found : report.definitions.find? extensionType = some definitions)
  {format : OutputFormat} {name text : String}
  (combined : report.combined? format = some (name, text))
  (output : FilePath) {formats : List OutputFormat}

include found combined

/-- The combined document of a format that is asked for is written. -/
theorem write_mem_changes (requested : format ∈ formats) :
    .write (documentPath output name) (Text.Utf8.encode text.toList) ∈
      report.changes output formats := by
  rw [changes, report.steps_of_found found]
  refine List.mem_map.mpr ⟨.document (documentPath output name) text, ?_, rfl⟩
  refine List.mem_cons_of_mem _ (List.mem_flatMap.mpr ⟨format, requested, ?_⟩)
  rw [report.formatSteps_of_combined combined]
  exact List.mem_cons_self

/-- Nothing else is written under the name of a combined document. -/
theorem writesOnly_changes : FileTree.WritesOnly (report.changes output formats)
    (documentPath output name) (Text.Utf8.encode text.toList) := by
  obtain ⟨c, ends, notSlash, notProperties, only⟩ := report.exists_getLast?_combined combined
  have pathEnds := getLast?_joinText (output.joinText "META-INF") ends
  intro other content member same
  rw [changes, report.steps_of_found found] at member
  obtain ⟨step, inside, change⟩ := List.mem_map.mp member
  rcases List.mem_cons.mp inside with rfl | inside
  · cases change
  · obtain ⟨format', -, inside⟩ := List.mem_flatMap.mp inside
    cases step with
    | directory path => cases change
    | document path text' =>
      cases change
      -- Both names end in the same letter, and the letter tells the format.
      rcases report.mem_formatSteps inside with ⟨name', combined', rfl⟩ | properties
      · obtain ⟨c', ends', notSlash', -⟩ := report.exists_getLast?_combined combined'
        have pathEnds' := getLast?_joinText (output.joinText "META-INF") ends'
        have equal := FilePath.eq_of_lastSegment pathEnds notSlash pathEnds' notSlash' same
        rw [equal] at ends'
        rw [only format' name' text' combined' ends']
      · have equal := FilePath.eq_of_lastSegment pathEnds notSlash properties (by decide) same
        exact absurd equal.symm notProperties

/-- **A combined document holds its rendering in the end**, whatever else is written. -/
theorem hasFile_combined {tree : FileTree}
    (possible : (tree.applyAll (report.changes output formats)).2 = true)
    (requested : format ∈ formats) :
    (tree.applyAll (report.changes output formats)).1.HasFile (documentPath output name)
      (Text.Utf8.encode text.toList) :=
  FileTree.hasFile_applyAll possible (write_mem_changes found combined output requested)
    (writesOnly_changes found combined output)

end Combined

end DocumentationReport

end ExtensionCatalog
