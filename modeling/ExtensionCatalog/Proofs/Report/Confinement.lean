/-
**Documentation stays below its directory.**

The names of the documents of properties come from class files, and the class files from
registrations that anybody may have written. A class is only loaded under the name that its file
gives it, names in class files are made without slashes, and blank lines register nothing. So the
name of a definition is one component of a path, and what is written can only be reached through the
output directory.

* `IsPlain`: a text that is one component of a path once something stands behind it;
* `ClassFile.not_mem_name`: **a class name holds no slash**, whatever the bytes are;
* `Assembly.exists_discovered`, `Assembly.isPlain_of_reported`: the definitions of a report have
  plain names;
* `IsDocument`: the names on the way from an output directory to a document;
* `Assembly.write_confined`: **what is written, and what is touched**.
-/

import ExtensionCatalog.Proofs.ClassFile.Reading
import ExtensionCatalog.Proofs.Discovery.Registration
import ExtensionCatalog.Proofs.FileTree.Reach
import ExtensionCatalog.Proofs.Report.Partition

namespace ExtensionCatalog

/-- A text that is neither empty nor more than one component of a path. -/
def IsPlain (text : String) : Prop := text ≠ "" ∧ '/' ∉ text.toList

/-! ### Names -/

open ByteReader in
/-- The name of a class constant holds no slash. -/
theorem ConstantPool.ensures_className (pool : ConstantPool) (index : UInt16) :
    Ensures (liftM (pool.className index) : ByteReader String) fun name => '/' ∉ name.toList := by
  intro input value rest read
  obtain ⟨name, found, equal⟩ := Outcome.bind_eq_ok_iff.mp read
  cases equal
  obtain ⟨constant, -, named⟩ := Outcome.bind_eq_ok_iff.mp found
  cases constant with
  | classRef place =>
    obtain ⟨internal, -, made⟩ := Outcome.bind_eq_ok_iff.mp named
    cases made
    exact ClassName.not_mem_exchange (by decide) internal
  | _ => cases named

namespace ClassFile

open ByteReader in
/-- **The name of a class holds no slash**, whatever the bytes of its file are. -/
theorem not_mem_name {bytes : Bytes} {file : ClassFile}
    (parsed : ClassFile.parse bytes = .ok file) : '/' ∉ file.name.toList := by
  have ensures : Ensures ClassFile.read fun file => '/' ∉ file.name.toList := by
    unfold ClassFile.read
    refine .after fun magic => ?_
    split
    · exact .bind (.throw _) fun _ => False.elim
    refine .after fun minorVersion => .after fun majorVersion => .after fun pool =>
      .after fun accessFlags => .after fun nameIndex => ?_
    refine (pool.ensures_className nameIndex).bind fun name plain => .after fun superIndex =>
      .bind_ite fun superName => .after fun interfaceCount => .after fun interfaces =>
      .after fun fieldCount => .after fun _ => .after fun methodCount =>
      .after fun defaults => .after fun attributeCount => .after fun annotations => .pure plain
  obtain ⟨result, read, equal⟩ := Outcome.bind_eq_ok_iff.mp parsed
  cases equal
  exact ensures _ _ _ read

end ClassFile

namespace Catalog

/-- A definition of a catalog is among those of some type. -/
theorem mem_definitions_iff {catalog : Catalog} {definition : Definition} :
    definition ∈ catalog.definitions ↔ ∃ extensionType definitions,
      catalog.find? extensionType = some definitions ∧ definition ∈ definitions := by
  simp only [definitions, SortedMap.values, List.mem_flatMap, List.mem_map]
  constructor
  · rintro ⟨-, ⟨⟨extensionType, found⟩, member, rfl⟩, inside⟩
    exact ⟨extensionType, found, (SortedMap.find?_eq_some_iff ..).mpr member, inside⟩
  · rintro ⟨extensionType, found, member, inside⟩
    exact ⟨found, ⟨(extensionType, found), (SortedMap.find?_eq_some_iff ..).mp member, rfl⟩,
      inside⟩

end Catalog

/-- A definition that is discovered has the name of a class that a registration lists. -/
theorem Survey.isPlain_of_discovered {survey : Survey} {extensionType : ExtensionType}
    {definitions : SortedSet Definition} {definition : Definition}
    (discovered : (survey.discover extensionType).outcome = .ok definitions)
    (member : definition ∈ definitions) : IsPlain definition.name := by
  obtain ⟨names, found, listed, -⟩ := discover_eq_ok_iff.mp discovered
  obtain ⟨name, registered, described⟩ := (mem_discovered_iff discovered listed).mp member
  rw [name_of_describe described]
  constructor
  · obtain ⟨interface, resources, -, -, rfl⟩ := classNames_eq_ok_iff.mp listed
    rcases (mem_foldl_union _ _ _).mp registered with nothing | ⟨resource, -, inside⟩
    · cases nothing
    · obtain ⟨line, -, listedOn⟩ := mem_registeredNames.mp inside
      exact listedOn.2.1
  · obtain ⟨loaded, loads, -⟩ := describe_eq_ok_iff.mp described
    obtain ⟨resource, -, defined⟩ := LoadingContext.load_eq_ok_iff.mp loads
    obtain ⟨parsed, named, -⟩ := LoadingContext.define_eq_ok_iff.mp defined
    rw [← named]
    exact ClassFile.not_mem_name parsed

/-- The definitions that a report has of a type are those that its discovery comes to. -/
theorem Assembly.exists_discovered {assembly : Assembly} {settings : DiscoverySettings}
    {module : Coordinate} {extensionType : ExtensionType} {definitions : SortedSet Definition}
    (found : (assembly.report settings module).2.definitions.find? extensionType =
      some definitions) :
    ∃ context, (Survey.discover ⟨context, assembly.tree, settings⟩ extensionType).outcome =
      .ok definitions := by
  cases built : (assembly.build module).outcome with
  | error error =>
    rw [report_of_error built] at found
    cases found
  | ok context =>
    obtain ⟨told, silent⟩ := assembly.report_tells built extensionType
    by_cases documented : extensionType ∈ ExtensionType.documented
    · exact ⟨context, (told documented).outcome_of_find? found⟩
    · rw [(silent documented).1] at found
      cases found

/-- **The definitions of a report have plain names.** -/
theorem Assembly.isPlain_of_reported {assembly : Assembly} {settings : DiscoverySettings}
    {module : Coordinate} {definition : Definition}
    (member : definition ∈ (assembly.report settings module).2.definitions.definitions) :
    IsPlain definition.name := by
  obtain ⟨extensionType, definitions, found, inside⟩ := Catalog.mem_definitions_iff.mp member
  obtain ⟨context, discovered⟩ := exists_discovered found
  exact Survey.isPlain_of_discovered discovered inside

/-! ### Documents -/

/-- The names on the way from an output directory to a document. -/
inductive IsDocument : List String → Prop
  | xml : IsDocument ["META-INF", "extension-docs.xml"]
  | json : IsDocument ["META-INF", "extension-docs.json"]
  | properties {name : String} (plain : IsPlain name) :
      IsDocument ["META-INF", "docs", name ++ ".properties"]

open FileTree in
theorem IsDocument.isComponent {names : List String} (document : IsDocument names) :
    ∀ name ∈ names, IsComponent name := by
  cases document with
  | xml => simp only [List.forall_mem_cons]; decide
  | json => simp only [List.forall_mem_cons]; decide
  | @properties name plain =>
    have ends : (name ++ ".properties").toList.getLast? = some 's' := by
      rw [String.toList_append, List.getLast?_append]
      rfl
    have other {word : String} (apart : word.toList.getLast? ≠ some 's') :
        name ++ ".properties" ≠ word := by
      rintro rfl
      exact apart ends
    intro part inside
    simp only [List.mem_cons, List.not_mem_nil, or_false] at inside
    rcases inside with rfl | rfl | rfl
    · decide
    · decide
    · refine ⟨?_, ?_, other (by decide)⟩
      · rw [String.toList_append, List.mem_append, not_or]
        exact ⟨plain.2, by decide⟩
      · rw [FilePath.isIdle, Bool.or_eq_false_iff, beq_eq_false_iff_ne, beq_eq_false_iff_ne]
        exact ⟨other (by decide), other (by decide)⟩

namespace DocumentationReport

variable {report : DocumentationReport}

/-- The document of the properties of a definition, below the directory for such documents. -/
def propertiesStep (documents : FilePath) (definition : Definition) : DocumentStep :=
  .document (documents.joinText (definition.name ++ ".properties")) definition.renderProperties

/-- What a report is written with: a directory, a document of the whole report, or a document of the
properties of one definition. -/
theorem mem_steps {output : FilePath} {formats : List OutputFormat} {step : DocumentStep}
    (member : step ∈ report.steps output formats) :
    step = .directory (output.joinText "META-INF") ∨
    step = .directory (documentPath output "docs") ∨
    (∃ format name text, report.combined? format = some (name, text) ∧
      step = .document (documentPath output name) text) ∨
    ∃ definition ∈ report.definitions.definitions,
      step = propertiesStep (documentPath output "docs") definition := by
  unfold steps at member
  split at member
  · cases member
  · rcases List.mem_cons.mp member with rfl | later
    · exact .inl rfl
    · obtain ⟨format, -, inside⟩ := List.mem_flatMap.mp later
      cases format with
      | xml => exact .inr (.inr (.inl ⟨.xml, _, _, rfl, List.mem_singleton.mp inside⟩))
      | json => exact .inr (.inr (.inl ⟨.json, _, _, rfl, List.mem_singleton.mp inside⟩))
      | properties =>
        rcases List.mem_cons.mp inside with rfl | written
        · exact .inr (.inl rfl)
        · obtain ⟨definition, found, rfl⟩ := List.mem_map.mp written
          exact .inr (.inr (.inr ⟨definition, found, rfl⟩))

/-- What is written are documents below the output directory. -/
theorem isDocument_of_mem_changes {output path : FilePath} {formats : List OutputFormat}
    {content : Bytes}
    (plain : ∀ definition ∈ report.definitions.definitions, IsPlain definition.name)
    (member : .write path content ∈ report.changes output formats) :
    ∃ names, IsDocument names ∧ path = names.foldl FilePath.joinText output := by
  obtain ⟨step, inside, made⟩ := List.mem_map.mp member
  rcases mem_steps inside with rfl | rfl | ⟨format, name, text, combined, rfl⟩ |
    ⟨definition, found, rfl⟩
  · cases made
  · cases made
  · cases made
    cases format with
    | xml => cases combined; exact ⟨_, .xml, rfl⟩
    | json => cases combined; exact ⟨_, .json, rfl⟩
    | properties => cases combined
  · cases made
    exact ⟨_, .properties (plain definition found), rfl⟩

/-- The directories that are made are those that documents stand in. -/
theorem directory_of_mem_changes {output path : FilePath} {formats : List OutputFormat}
    (member : .makeDirectories path ∈ report.changes output formats) :
    path = output.joinText "META-INF" ∨ path = documentPath output "docs" := by
  obtain ⟨step, inside, made⟩ := List.mem_map.mp member
  rcases mem_steps inside with rfl | rfl | ⟨format, name, text, combined, rfl⟩ |
    ⟨definition, found, rfl⟩
  · cases made
    exact .inl rfl
  · cases made
    exact .inr rfl
  · cases made
  · cases made

end DocumentationReport

namespace Assembly

open FileTree DocumentationReport

/-- **The documentation of a module stays below its directory**, whatever the files of the module
and the registrations in them hold. The names of its definitions are single components of paths,
what is written are the two combined documents and one document for a name, and no location changes
but that of such a document below the place of the output directory, and those of missing
directories on the way to it. -/
theorem write_confined (assembly : Assembly) (settings : DiscoverySettings) (module : Coordinate)
    (tree : FileTree) (output : FilePath) (formats : List OutputFormat) :
    let report := (assembly.report settings module).2
    let performed := report.write tree output formats
    let after := performed.apply tree
    (∀ definition ∈ report.definitions.definitions, IsPlain definition.name) ∧
    (∀ path content, .write path content ∈ performed.changes →
      ∃ names, IsDocument names ∧ path = names.foldl FilePath.joinText output) ∧
    ∀ location, after.entryAt? location ≠ tree.entryAt? location →
      (∃ place names content, after.place? output = some place ∧ IsDocument names ∧
        location = place ++ names ∧ after.entryAt? location = some (.file content)) ∨
      NewDirectory tree after location ∧ after.Passes (documentPath output "docs") location := by
  intro report performed after
  have plain : ∀ definition ∈ report.definitions.definitions, IsPlain definition.name :=
    fun definition member => isPlain_of_reported member
  have asked : performed.changes = report.changes output formats :=
    (report.write_eq tree output formats).1
  have written (path : FilePath) (content : Bytes)
      (member : .write path content ∈ performed.changes) :
      ∃ names, IsDocument names ∧ path = names.foldl FilePath.joinText output := by
    rw [asked] at member
    exact isDocument_of_mem_changes plain member
  refine ⟨plain, written, fun location touched => ?_⟩
  obtain ⟨change, member, touches⟩ := touches_applyAll touched
  cases touches with
  | @file path content leads stands =>
    obtain ⟨names, document, rfl⟩ := written path content member
    obtain ⟨place, reached, rfl⟩ :=
      place?_foldl_joinText document.isComponent (place?_of_locate? leads)
    exact .inl ⟨place, names, content, reached, document, rfl, stands⟩
  | @directory path made passes =>
    rw [asked] at member
    rcases directory_of_mem_changes member with rfl | rfl
    · exact .inr ⟨made, passes.joinText (by decide)⟩
    · exact .inr ⟨made, passes⟩

end Assembly

end ExtensionCatalog
