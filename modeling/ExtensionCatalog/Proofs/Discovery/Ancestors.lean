/-
**An extension is described the same from every level that sees it.**

The definition of a class is made of lookups that start at the level that defines the class, so it
does not depend on the level that asks. Resources of an ancestor are resources of every context
below it, so what an ancestor registers is registered below.

* `extract_of_ancestor`: **a definition that an ancestor extracts is extracted below**;
* `mem_classNames_of_ancestor`: what an ancestor registers is registered below;
* `discover_eq_ok_iff`: what is discovered are the descriptions of the registered names;
* `discover_of_ancestor`: **what an ancestor discovers is discovered below, unchanged**.
-/

import ExtensionCatalog.Discovery
import ExtensionCatalog.Proofs.ClassFile.Layout
import ExtensionCatalog.Proofs.Extraction.ServiceApis
import ExtensionCatalog.Proofs.LoadingContext.View

namespace ExtensionCatalog.Survey

open LoadingContext ClassFile

variable {survey : Survey} {ancestor : LoadingContext} {loaded : LoadedClass}
  {extensionType : ExtensionType}

/-- The survey that a context makes with the same files and settings. -/
def seenFrom (survey : Survey) (context : LoadingContext) : Survey :=
  { survey with context := context }

section Parts

variable (distinct : (survey.context.levels.map (·.id)).Nodup)
  (above : ancestor ∈ survey.context.ancestry) (seen : ancestor.IsLoaded survey.tree loaded)

include distinct above seen

/-! ### The parts of a definition -/

theorem view_eq (className : String) (mark : Annotation) :
    Marker.view survey.context survey.tree loaded.definedBy className mark =
      Marker.view ancestor survey.tree loaded.definedBy className mark := by
  unfold Marker.view
  rw [loadFrom_eq_of_isLoaded distinct above seen]

theorem marker?_eq (typeName : String) :
    survey.marker? loaded typeName = (survey.seenFrom ancestor).marker? loaded typeName := by
  unfold marker? Marker.find?
  cases loaded.file.annotation? typeName with
  | none => rfl
  | some mark =>
    show (do return some (← Marker.view survey.context survey.tree _ _ _)) = _
    rw [view_eq distinct above seen]
    rfl

theorem description_eq :
    survey.description loaded = (survey.seenFrom ancestor).description loaded := by
  unfold description
  rw [marker?_eq distinct above seen]
  rfl

theorem tags_eq : survey.tags loaded = (survey.seenFrom ancestor).tags loaded := by
  unfold tags
  rw [marker?_eq distinct above seen]
  rfl

theorem restrictionOf_eq (restricted : Marker) :
    survey.restrictionOf loaded restricted =
      (survey.seenFrom ancestor).restrictionOf loaded restricted := by
  funext entry
  unfold restrictionOf
  cases entry.nested? with
  | none => rfl
  | some mark =>
    dsimp only
    rw [view_eq distinct above seen]
    rfl

theorem restrictions_eq :
    survey.restrictions loaded = (survey.seenFrom ancestor).restrictions loaded := by
  unfold restrictions
  rw [marker?_eq distinct above seen]
  refine bind_congr fun found => ?_
  cases found with
  | none => rfl
  | some restricted =>
    dsimp only
    rw [restrictionOf_eq distinct above seen]

theorem definingModule_seenFrom :
    survey.definingModule loaded = (survey.seenFrom ancestor).definingModule loaded := by
  unfold definingModule
  rw [at?_eq_of_isLoaded distinct above seen]
  rfl

theorem outcome_serviceApi?_eq (contract : LoadedClass) (interface : String) :
    (survey.serviceApi? contract loaded interface).outcome =
      ((survey.seenFrom ancestor).serviceApi? contract loaded interface).outcome := by
  rw [outcome_serviceApi?, outcome_serviceApi?,
    loadIfPresent_eq_of_isLoaded distinct above seen interface]
  refine Outcome.bind_congr_of_ok fun found looked => ?_
  cases found with
  | none => rfl
  | some type =>
    have typeSeen : ancestor.IsLoaded survey.tree type :=
      isLoaded_of_loadFrom (loadIfPresent_eq_ok_some_iff.mp looked)
    dsimp only
    rw [outcome_isAssignable_eq distinct above typeSeen,
      definingModule_seenFrom distinct above typeSeen]
    rfl

theorem serviceApis_of_ancestor {apis : SortedSet ServiceApi}
    (served : ((survey.seenFrom ancestor).serviceApis loaded).outcome = .ok apis) :
    (survey.serviceApis loaded).outcome = .ok apis := by
  obtain ⟨contractName, contract, found, configured, known, each, whole⟩ :=
    serviceApis_eq_ok_iff.mp served
  refine serviceApis_eq_ok_iff.mpr ⟨contractName, contract, found, configured,
    load_eq_ok_of_mem_ancestry above known, ?_, whole⟩
  rw [← each]
  congr 1
  funext interface
  exact outcome_serviceApi?_eq distinct above seen contract interface

/-- **A definition that an ancestor extracts is extracted by every context below.** -/
theorem extract_of_ancestor {definition : Definition}
    (extracted : ((survey.seenFrom ancestor).extract loaded extensionType).outcome =
      .ok definition) :
    (survey.extract loaded extensionType).outcome = .ok definition := by
  obtain ⟨typed, named, described, tagged, restricted, served⟩ := extract_eq_ok_iff.mp extracted
  rw [← description_eq distinct above seen] at described
  rw [← tags_eq distinct above seen] at tagged
  rw [← restrictions_eq distinct above seen] at restricted
  refine extract_eq_ok_iff.mpr ⟨typed, named, described, tagged, restricted, ?_⟩
  by_cases service : extensionType = .controllerService
  · rw [if_pos service] at served ⊢
    exact serviceApis_of_ancestor distinct above seen served
  · rw [if_neg service] at served ⊢
    exact served

end Parts

/-! ### Registered names -/

theorem mem_foldl_union {α : Type} (names : α → SortedSet String) (items : List α)
    (start : SortedSet String) {name : String} :
    name ∈ items.foldl (fun all item => all.union (names item)) start ↔
      name ∈ start ∨ ∃ item ∈ items, name ∈ names item := by
  induction items generalizing start with
  | nil => simp
  | cons item items hypothesis =>
    rw [List.foldl_cons, hypothesis, SortedSet.mem_union, or_assoc]
    simp only [List.mem_cons, exists_eq_or_imp]

/-- The names that are registered are those in the resources of the contract's registration. -/
theorem classNames_eq_ok_iff {names : SortedSet String} :
    (survey.classNames extensionType).outcome = .ok names ↔ ∃ interface resources,
      survey.settings.contract? extensionType = some interface ∧
      (survey.context.findResources survey.tree
        (survey.settings.registrationPath interface)).outcome = .ok resources ∧
      names = resources.foldl (fun names resource =>
        names.union (registeredNames (Text.Utf8.decodeLossy resource.content))) ∅ := by
  unfold classNames
  cases configured : survey.settings.contract? extensionType with
  | none => exact iff_of_false (fun equal => by cases equal) (by simp)
  | some interface =>
    simp only [Logged.outcome_bind, Outcome.bind_eq_ok_iff]
    constructor
    · intro listed
      obtain ⟨resources, found, whole⟩ := listed
      cases whole
      exact ⟨interface, resources, rfl, found, rfl⟩
    · intro listed
      obtain ⟨_, resources, ⟨⟩, found, rfl⟩ := listed
      exact ⟨resources, found, rfl⟩

/-- The resources of an ancestor come first. -/
theorem prefix_of_findResources {tree : FileTree} {context : LoadingContext} {name : String}
    (above : ancestor ∈ context.ancestry) {outer whole : List Resource}
    (foundOuter : (ancestor.findResources tree name).outcome = .ok outer)
    (found : (context.findResources tree name).outcome = .ok whole) : outer <+: whole := by
  obtain ⟨further, same⟩ := sources_prefix_of_mem_ancestry above
  unfold findResources at foundOuter found
  rw [← same, List.mapM_append] at found
  simp only [Logged.outcome_bind, Outcome.bind_eq_ok_iff] at foundOuter found
  obtain ⟨first, readFirst, keptFirst⟩ := foundOuter
  obtain ⟨each, ⟨first', readFirst', second, readSecond, joined⟩, kept⟩ := found
  rw [readFirst] at readFirst'
  cases readFirst'
  cases joined
  cases keptFirst
  cases kept
  rw [List.reduceOption_append]
  exact List.prefix_append _ _

/-- What an ancestor registers is registered below. -/
theorem mem_classNames_of_ancestor (above : ancestor ∈ survey.context.ancestry)
    {outer whole : SortedSet String}
    (listedOuter : ((survey.seenFrom ancestor).classNames extensionType).outcome = .ok outer)
    (listed : (survey.classNames extensionType).outcome = .ok whole) {name : String}
    (member : name ∈ outer) : name ∈ whole := by
  obtain ⟨interface, resources, configured, found, rfl⟩ := classNames_eq_ok_iff.mp listedOuter
  obtain ⟨interface', resources', configured', found', rfl⟩ := classNames_eq_ok_iff.mp listed
  have same : interface' = interface := Option.some.inj (configured'.symm.trans configured)
  rw [same] at found'
  rw [mem_foldl_union] at member ⊢
  rcases member with nothing | ⟨resource, inside, registered⟩
  · cases nothing
  · exact .inr ⟨resource, (prefix_of_findResources above found found').subset inside, registered⟩

/-! ### What is discovered -/

theorem describe_eq_ok_iff {className : String} {definition : Definition} :
    (survey.describe extensionType className).outcome = .ok definition ↔ ∃ loaded,
      (survey.context.load survey.tree className).outcome = .ok loaded ∧
        (survey.extract loaded extensionType).outcome = .ok definition := by
  unfold describe
  rw [Logged.outcome_mapError, Outcome.mapError_eq_ok_iff, Logged.outcome_bind,
    Outcome.bind_eq_ok_iff]

/-- What is discovered are the descriptions of the registered names. -/
theorem discover_eq_ok_iff {definitions : SortedSet Definition} :
    (survey.discover extensionType).outcome = .ok definitions ↔ ∃ names found,
      (survey.classNames extensionType).outcome = .ok names ∧
      (names.toList.mapM fun name => (survey.describe extensionType name).outcome) = .ok found ∧
      definitions = .ofList found := by
  unfold discover
  simp only [Logged.outcome_bind, Logged.outcome_mapM, Outcome.bind_eq_ok_iff]
  constructor
  · intro discovered
    obtain ⟨names, listed, found, described, rest⟩ := discovered
    refine ⟨names, found, listed, described, ?_⟩
    -- The line that is logged does not matter.
    by_cases some : (!names.isEmpty) = true
    · rw [if_pos some] at rest
      exact (Except.ok.inj rest).symm
    · rw [if_neg some] at rest
      exact (Except.ok.inj rest).symm
  · intro discovered
    obtain ⟨names, found, listed, described, rfl⟩ := discovered
    refine ⟨names, listed, found, described, ?_⟩
    by_cases some : (!names.isEmpty) = true
    · rw [if_pos some]
      rfl
    · rw [if_neg some]
      rfl

/-- A definition is discovered exactly if it is what a registered name is described as. -/
theorem mem_discovered_iff {definitions : SortedSet Definition}
    (discovered : (survey.discover extensionType).outcome = .ok definitions)
    {names : SortedSet String} (listed : (survey.classNames extensionType).outcome = .ok names)
    {definition : Definition} :
    definition ∈ definitions ↔ ∃ name ∈ names,
      (survey.describe extensionType name).outcome = .ok definition := by
  obtain ⟨names', found, listed', described, rfl⟩ := discover_eq_ok_iff.mp discovered
  rw [listed] at listed'
  cases listed'
  rw [SortedSet.mem_ofList, Outcome.mem_of_mapM_eq_ok described]
  rfl

theorem name_of_describe {className : String} {definition : Definition}
    (described : (survey.describe extensionType className).outcome = .ok definition) :
    definition.name = className := by
  obtain ⟨loaded, found, extracted⟩ := describe_eq_ok_iff.mp described
  obtain ⟨-, named, -⟩ := extract_eq_ok_iff.mp extracted
  rw [named, name_eq_of_load found]

theorem describe_of_ancestor (distinct : (survey.context.levels.map (·.id)).Nodup)
    (above : ancestor ∈ survey.context.ancestry) {className : String} {definition : Definition}
    (described : ((survey.seenFrom ancestor).describe extensionType className).outcome =
      .ok definition) : (survey.describe extensionType className).outcome = .ok definition := by
  obtain ⟨loaded, found, extracted⟩ := describe_eq_ok_iff.mp described
  have seen : ancestor.IsLoaded survey.tree loaded := isLoaded_of_load (mem_ancestry_self _) found
  exact describe_eq_ok_iff.mpr ⟨loaded, load_eq_ok_of_mem_ancestry above found,
    extract_of_ancestor distinct above seen extracted⟩

/-- **What an ancestor discovers is discovered below, unchanged.** Along a chain of levels with
distinct identities, whatever a context adds to what an ancestor holds: if both discover the
extensions of a type, the context discovers every definition that the ancestor does, and no other
definition of the same name. -/
theorem discover_of_ancestor (survey : Survey)
    (distinct : (survey.context.levels.map (·.id)).Nodup) {ancestor : LoadingContext}
    (above : ancestor ∈ survey.context.ancestry) {extensionType : ExtensionType}
    {outer whole : SortedSet Definition}
    (discoveredOuter : ((survey.seenFrom ancestor).discover extensionType).outcome = .ok outer)
    (discovered : (survey.discover extensionType).outcome = .ok whole) :
    ∀ definition ∈ outer, definition ∈ whole ∧
      ∀ other ∈ whole, other.name = definition.name → other = definition := by
  obtain ⟨outerNames, -, listedOuter, -⟩ := discover_eq_ok_iff.mp discoveredOuter
  obtain ⟨names, -, listed, -⟩ := discover_eq_ok_iff.mp discovered
  intro definition member
  obtain ⟨name, registered, described⟩ := (mem_discovered_iff discoveredOuter listedOuter).mp member
  have described := describe_of_ancestor distinct above described
  constructor
  · have registered := mem_classNames_of_ancestor above listedOuter listed registered
    exact (mem_discovered_iff discovered listed).mpr ⟨name, registered, described⟩
  · intro other member same
    obtain ⟨otherName, -, describedOther⟩ := (mem_discovered_iff discovered listed).mp member
    rw [name_of_describe describedOther, name_of_describe described] at same
    rw [same, described] at describedOther
    exact (Except.ok.inj describedOther).symm

/-- The class file of a class that is marked with `D` and sets none of its elements. -/
def markedClass (name : String) : Bytes :=
  Layout.bytes {
    minorVersion := 0, majorVersion := 52
    pool := [.text name, .classRef 1, .text "RuntimeVisibleAnnotations", .text "LD;"]
    accessFlags := 1, name := 2, superName := 0, interfaces := [], fields := [], methods := []
    attributes := [.known 3 [⟨4, []⟩]] }

/-- The class file of an annotation type `D` with a default for its element. -/
def markerClass (value : String) : Bytes :=
  Layout.bytes {
    minorVersion := 0, majorVersion := 52
    pool := [.text "D", .classRef 1, .text "value", .text "AnnotationDefault", .text value]
    accessFlags := annotationFlag, name := 2, superName := 0, interfaces := []
    fields := [], methods := [⟨0x401, 3, 0, [.known 4 (.scalar .string 5)]⟩], attributes := [] }

/-- The files of two levels. The inner one holds another class `A` and another marker `D`, and
registers `A` once more next to its own `B`. -/
def markedTree : FileTree where
  entries := .ofList [(["outer"], .directory), (["outer", "A.class"], .file (markedClass "A")),
    (["outer", "D.class"], .file (markerClass "outer")), (["outer", "META-INF"], .directory),
    (["outer", "META-INF", "services"], .directory),
    (["outer", "META-INF", "services", "P"], .file [65, 10]), (["inner"], .directory),
    (["inner", "A.class"], .file (lettersClass 65 [])),
    (["inner", "B.class"], .file (markedClass "B")),
    (["inner", "D.class"], .file (markerClass "inner")), (["inner", "META-INF"], .directory),
    (["inner", "META-INF", "services"], .directory),
    (["inner", "META-INF", "services", "P"], .file [66, 10, 65])]
  workingDirectory := []

/-- The outer of the two levels. -/
def markedAncestor : LoadingContext :=
  .root ⟨⟨0, 0⟩, none, ∅, [.directory ⟨"/outer"⟩]⟩

/-- The survey of the inner level. -/
def markedSurvey : Survey where
  context := .child markedAncestor ⟨⟨0, 1⟩, none, ∅, [.directory ⟨"/inner"⟩]⟩
  tree := markedTree
  settings := { contracts := [⟨.processor, "P"⟩], markers := { description := "D" } }

/-- The inner level shadows the class and the marker in vain: `A` keeps the description that it has
outside. -/
theorem discover_of_ancestor_shadowed :
    (markedSurvey.context.levels.map (·.id)).Nodup ∧
    markedAncestor ∈ markedSurvey.context.ancestry ∧
    ∃ outer whole,
      ((markedSurvey.seenFrom markedAncestor).discover .processor).outcome = .ok outer ∧
      (markedSurvey.discover .processor).outcome = .ok whole ∧
      outer.toList = [⟨.processor, "A", some "outer", ∅, none, ∅⟩] ∧
      ∀ definition ∈ outer, definition ∈ whole ∧
        ∀ other ∈ whole, other.name = definition.name → other = definition := by
  have distinct : (markedSurvey.context.levels.map (·.id)).Nodup := by decide +kernel
  have above : markedAncestor ∈ markedSurvey.context.ancestry :=
    List.mem_cons_of_mem _ (List.mem_singleton_self _)
  have computed :
      ((markedSurvey.seenFrom markedAncestor).discover .processor).outcome.toOption.map (·.toList) =
        some [⟨.processor, "A", some "outer", ∅, none, ∅⟩] := by decide +kernel
  have below : (markedSurvey.discover .processor).outcome.toOption.isSome := by decide +kernel
  obtain ⟨outer, found, listed⟩ := Option.map_eq_some_iff.mp computed
  obtain ⟨whole, foundWhole⟩ := Option.isSome_iff_exists.mp below
  have discoveredOuter := Outcome.eq_ok_of_toOption found
  have discovered := Outcome.eq_ok_of_toOption foundWhole
  exact ⟨distinct, above, outer, whole, discoveredOuter, discovered, listed,
    discover_of_ancestor markedSurvey distinct above discoveredOuter discovered⟩

end ExtensionCatalog.Survey
