/-
**What the levels of an assembly are made of.**

The files of a level are located one by one, and a level is put below another one. The chain that
comes out is described by its levels, the outermost one first made:

* `locate_eq_ok_iff`: the file of one artifact;
* `locateAll_spec`: **the files of many**, each where it is located alone;
* `levelRecords`, `find?_added`, `contains_added`: what a module adds to the levels above it;
* `Raised`: a chain of levels above a foundation, one case for each level;
* `raise_eq_ok_iff`, `build_eq_ok_iff`: **a build yields exactly the raised climbs**.
-/

import ExtensionCatalog.Assembly
import ExtensionCatalog.Proofs.ModuleChain.Climb

namespace ExtensionCatalog.Assembly

open ModuleChain

variable {assembly : Assembly}

/-! ### Files -/

section Files

variable {coordinate : Coordinate} {recorded : Option FilePath} {path : FilePath}

/-- The file of an artifact exists; it is the recorded one, or the resolved one if the recorded one
does not exist. -/
theorem locate_eq_ok_iff :
    assembly.locate coordinate recorded = .ok path ↔
      assembly.tree.exists? path = true ∧
        (recorded = some path ∨
          (∀ file, recorded = some file → assembly.tree.exists? file = false) ∧
            assembly.resolver coordinate = some path) := by
  unfold locate
  cases there : recorded.filter assembly.tree.exists? with
  | some file =>
    obtain ⟨rfl, present⟩ := Option.filter_eq_some_iff.mp there
    rw [Option.some_or]
    constructor
    · rintro ⟨⟩
      exact ⟨present, .inl rfl⟩
    · rintro ⟨-, same | ⟨absent, -⟩⟩
      · cases same
        rfl
      · rw [absent file rfl] at present
        cases present
  | none =>
    have absent : ∀ file, recorded = some file → assembly.tree.exists? file = false := by
      simpa [Option.filter_eq_none_iff] using there
    rw [Option.none_or]
    cases resolved : (assembly.resolver coordinate).filter assembly.tree.exists? with
    | some file =>
      obtain ⟨known, present⟩ := Option.filter_eq_some_iff.mp resolved
      constructor
      · rintro ⟨⟩
        exact ⟨present, .inr ⟨absent, known⟩⟩
      · rintro ⟨present, same | ⟨-, same⟩⟩
        · rw [absent path same] at present
          cases present
        · rw [known] at same
          cases same
          rfl
    | none =>
      refine iff_of_false (fun equal => by cases equal) ?_
      rintro ⟨present, same | ⟨-, same⟩⟩
      · rw [absent path same] at present
        cases present
      · rw [same, Option.filter_some, if_pos present] at resolved
        cases resolved

/-- **The files of many artifacts.** They are located together only if each has a file, and then
each is where it is located alone. -/
theorem locateAll_spec {records : List (Coordinate × Option FilePath)}
    (agree : ∀ coordinate first second,
      (coordinate, first) ∈ records → (coordinate, second) ∈ records → first = second)
    {artifacts : SortedMap Coordinate FilePath}
    (located : assembly.locateAll records = .ok artifacts) :
    (∀ record ∈ records, ∃ path, assembly.locate record.1 record.2 = .ok path) ∧
      ∀ coordinate path, artifacts.find? coordinate = some path ↔
        ∃ recorded, (coordinate, recorded) ∈ records ∧
          assembly.locate coordinate recorded = .ok path := by
  unfold locateAll at located
  obtain ⟨pairs, mapped, equal⟩ := Outcome.bind_eq_ok_iff.mp located
  cases equal
  have members : ∀ coordinate path, (coordinate, path) ∈ pairs ↔
      ∃ recorded, (coordinate, recorded) ∈ records ∧
        assembly.locate coordinate recorded = .ok path := by
    intro coordinate path
    rw [Outcome.mem_of_mapM_eq_ok mapped]
    constructor
    · rintro ⟨⟨name, recorded⟩, member, found⟩
      obtain ⟨rfl, yields⟩ := Outcome.labelled_eq_ok_iff.mp found
      exact ⟨recorded, member, yields⟩
    · rintro ⟨recorded, member, found⟩
      exact ⟨_, member, Outcome.labelled_eq_ok_iff.mpr ⟨rfl, found⟩⟩
  refine ⟨fun record member => ?_, fun coordinate path => ?_⟩
  · obtain ⟨pair, found⟩ := Outcome.exists_of_mapM_eq_ok mapped member
    exact ⟨pair.2, (Outcome.labelled_eq_ok_iff.mp found).2⟩
  · rw [← members, SortedMap.find?_ofList_eq_some_iff]
    intro coordinate first second firstMember secondMember
    obtain ⟨recorded, inFirst, foundFirst⟩ := (members _ _).mp firstMember
    obtain ⟨again, inSecond, foundSecond⟩ := (members _ _).mp secondMember
    rw [agree _ _ _ inFirst inSecond, foundSecond] at foundFirst
    cases foundFirst
    rfl

end Files

/-! ### Levels -/

/-- What a module adds to the levels above it. -/
def levelRecords (parent : LoadingContext) (step : ModuleStep) :
    List (Coordinate × Option FilePath) :=
  step.ownDependencies.toList.filter fun (coordinate, _) => !parent.exposes coordinate

theorem mem_levelRecords_iff {parent : LoadingContext} {step : ModuleStep}
    {coordinate : Coordinate} {recorded : Option FilePath} :
    (coordinate, recorded) ∈ levelRecords parent step ↔
      step.ownDependencies.find? coordinate = some recorded ∧
        parent.exposes coordinate = false := by
  rw [levelRecords, List.mem_filter, DependencySet.find?, SortedMap.find?_eq_some_iff]
  simp [DependencySet.toList]

theorem levelRecords_agree (parent : LoadingContext) (step : ModuleStep) :
    ∀ coordinate first second, (coordinate, first) ∈ levelRecords parent step →
      (coordinate, second) ∈ levelRecords parent step → first = second := by
  intro coordinate first second inFirst inSecond
  have one := (mem_levelRecords_iff.mp inFirst).1
  rw [(mem_levelRecords_iff.mp inSecond).1] at one
  cases one
  rfl

section Added

variable {parent : LoadingContext} {step : ModuleStep} {artifacts : SortedMap Coordinate FilePath}
  {coordinate : Coordinate}

/-- What a level adds is located by the records of its module. -/
theorem find?_added (located : assembly.locateAll (levelRecords parent step) = .ok artifacts)
    {path : FilePath} :
    artifacts.find? coordinate = some path ↔
      ∃ recorded, step.ownDependencies.find? coordinate = some recorded ∧
        parent.exposes coordinate = false ∧
        assembly.locate coordinate recorded = .ok path := by
  rw [(locateAll_spec (levelRecords_agree parent step) located).2]
  simp only [mem_levelRecords_iff, and_assoc]

/-- What a level adds are the dependencies of its module that no level above it exposes. -/
theorem contains_added (located : assembly.locateAll (levelRecords parent step) = .ok artifacts) :
    artifacts.contains coordinate = true ↔
      (step.ownDependencies.find? coordinate).isSome ∧ parent.exposes coordinate = false := by
  rw [SortedMap.contains, Option.isSome_iff_exists, Option.isSome_iff_exists]
  constructor
  · rintro ⟨path, found⟩
    obtain ⟨recorded, own, hidden, -⟩ := (find?_added located).mp found
    exact ⟨⟨recorded, own⟩, hidden⟩
  · rintro ⟨⟨recorded, own⟩, hidden⟩
    have member := mem_levelRecords_iff.mpr ⟨own, hidden⟩
    obtain ⟨path, found⟩ := (locateAll_spec (levelRecords_agree parent step) located).1 _ member
    exact ⟨path, (find?_added located).mpr ⟨recorded, own, hidden, found⟩⟩

end Added

/-- A chain of levels above a foundation: a level for each module, that of the first one
innermost. -/
inductive Raised (assembly : Assembly) (foundation : LoadingContext) :
    List ModuleStep → LoadingContext → Prop
  | foundation : Raised assembly foundation [] foundation
  | level {step : ModuleStep} {steps : List ModuleStep} {parent : LoadingContext}
      {artifacts : SortedMap Coordinate FilePath} (outer : Raised assembly foundation steps parent)
      (located : assembly.locateAll (levelRecords parent step) = .ok artifacts) :
      Raised assembly foundation (step :: steps)
        (parent.extend assembly.tree (some step.module) artifacts)

theorem buildLevel_eq_ok_iff {parent context : LoadingContext} {step : ModuleStep} :
    (assembly.buildLevel parent step).outcome = .ok context ↔
      ∃ artifacts, assembly.locateAll (levelRecords parent step) = .ok artifacts ∧
        context = parent.extend assembly.tree (some step.module) artifacts := by
  unfold buildLevel
  simp only [Logged.outcome_bind, Outcome.bind_eq_ok_iff]
  constructor
  · rintro ⟨artifacts, located, -, -, equal⟩
    cases equal
    exact ⟨artifacts, located, rfl⟩
  · rintro ⟨artifacts, located, rfl⟩
    exact ⟨artifacts, located, (), rfl, rfl⟩

theorem foldlM_buildLevel_eq_ok_iff {foundation context : LoadingContext}
    {steps : List ModuleStep} :
    (steps.reverse.foldlM assembly.buildLevel foundation).outcome = .ok context ↔
      Raised assembly foundation steps context := by
  induction steps generalizing context with
  | nil =>
    constructor
    · rintro ⟨⟩
      exact .foundation
    · rintro ⟨⟩
      rfl
  | cons step steps hypothesis =>
    rw [List.reverse_cons, List.foldlM_append, Logged.outcome_bind, Outcome.bind_eq_ok_iff]
    simp only [List.foldlM_cons, List.foldlM_nil, bind_pure, hypothesis, buildLevel_eq_ok_iff]
    constructor
    · rintro ⟨parent, outer, artifacts, located, rfl⟩
      exact .level outer located
    · rintro (_ | ⟨outer, located⟩)
      exact ⟨_, outer, _, located, rfl⟩

/-- What all modules share: the framework interface and its companion in one version, and the
logging contract if the modules depend on it. -/
theorem foundationArtifacts_eq_ok_iff {accumulated : DependencySet} {provided : List Coordinate} :
    (assembly.foundationArtifacts accumulated).outcome = .ok provided ↔
      ∃ version logging,
        (assembly.providedVersion accumulated assembly.foundation.api).outcome =
          .ok (some version) ∧
        (assembly.providedVersion accumulated assembly.foundation.logging).outcome = .ok logging ∧
        provided = [.jar assembly.foundation.api.group assembly.foundation.api.artifact version,
            .jar assembly.foundation.api.group assembly.foundation.companion version] ++
          logging.toList.map (.jar assembly.foundation.logging.group
            assembly.foundation.logging.artifact) := by
  unfold foundationArtifacts
  simp only [Logged.outcome_bind, Outcome.bind_eq_ok_iff]
  constructor
  · rintro ⟨_ | version, interface, rest⟩
    · cases rest
    · simp only [Logged.outcome_bind, Outcome.bind_eq_ok_iff] at rest
      obtain ⟨-, -, logging, contract, rest⟩ := rest
      refine ⟨version, logging, interface, contract, ?_⟩
      cases logging <;> cases rest <;> rfl
  · rintro ⟨version, logging, interface, contract, rfl⟩
    refine ⟨some version, interface, ?_⟩
    simp only [Logged.outcome_bind, Outcome.bind_eq_ok_iff]
    refine ⟨(), rfl, logging, contract, ?_⟩
    cases logging <;> rfl

theorem kind_of_foundationArtifacts {accumulated : DependencySet} {provided : List Coordinate}
    (chosen : (assembly.foundationArtifacts accumulated).outcome = .ok provided) :
    ∀ coordinate ∈ provided, coordinate.kind = Coordinate.defaultKind := by
  obtain ⟨version, logging, -, -, rfl⟩ := foundationArtifacts_eq_ok_iff.mp chosen
  intro coordinate member
  rcases List.mem_append.mp member with shared | contract
  · rcases List.mem_pair.mp shared with rfl | rfl <;> rfl
  · obtain ⟨version, -, rfl⟩ := List.mem_map.mp contract
    rfl

/-- The artifacts of a foundation are located like those of a level; no module owns it. -/
theorem buildFoundation_eq_ok_iff {accumulated : DependencySet} {context : LoadingContext} :
    (assembly.buildFoundation accumulated).outcome = .ok context ↔
      ∃ provided artifacts,
        (assembly.foundationArtifacts accumulated).outcome = .ok provided ∧
        assembly.locateAll (provided.map fun coordinate =>
          (coordinate, (accumulated.find? coordinate).join)) = .ok artifacts ∧
        context = .foundationOf assembly.tree assembly.chain none artifacts := by
  unfold buildFoundation
  simp only [Logged.outcome_bind, Outcome.bind_eq_ok_iff]
  constructor
  · rintro ⟨provided, chosen, artifacts, located, equal⟩
    cases equal
    exact ⟨provided, artifacts, chosen, located, rfl⟩
  · rintro ⟨provided, artifacts, chosen, located, rfl⟩
    exact ⟨provided, chosen, artifacts, located, rfl⟩

/-- **The foundation.** It holds what all modules share, each artifact located by the record nearest
to the first module. -/
theorem buildFoundation_spec {accumulated : DependencySet} {context : LoadingContext}
    (founded : (assembly.buildFoundation accumulated).outcome = .ok context) :
    ∃ provided artifacts,
      (assembly.foundationArtifacts accumulated).outcome = .ok provided ∧
      context = .foundationOf assembly.tree assembly.chain none artifacts ∧
      (∀ coordinate ∈ provided, ∃ path,
        assembly.locate coordinate (accumulated.find? coordinate).join = .ok path) ∧
      ∀ coordinate path, artifacts.find? coordinate = some path ↔ coordinate ∈ provided ∧
        assembly.locate coordinate (accumulated.find? coordinate).join = .ok path := by
  obtain ⟨provided, artifacts, chosen, located, rfl⟩ := buildFoundation_eq_ok_iff.mp founded
  have members : ∀ coordinate recorded,
      (coordinate, recorded) ∈ provided.map (fun coordinate =>
        (coordinate, (accumulated.find? coordinate).join)) ↔
      coordinate ∈ provided ∧ (accumulated.find? coordinate).join = recorded := by
    intro coordinate recorded
    rw [List.mem_map]
    constructor
    · rintro ⟨coordinate, member, ⟨⟩⟩
      exact ⟨member, rfl⟩
    · rintro ⟨member, rfl⟩
      exact ⟨coordinate, member, rfl⟩
  have agree : ∀ coordinate first second,
      (coordinate, first) ∈ provided.map (fun coordinate =>
        (coordinate, (accumulated.find? coordinate).join)) →
      (coordinate, second) ∈ provided.map (fun coordinate =>
        (coordinate, (accumulated.find? coordinate).join)) → first = second := by
    intro coordinate first second inFirst inSecond
    rw [← ((members _ _).mp inFirst).2, ((members _ _).mp inSecond).2]
  obtain ⟨all, files⟩ := locateAll_spec agree located
  refine ⟨provided, artifacts, chosen, rfl, fun coordinate member => ?_,
    fun coordinate path => ?_⟩
  · exact all _ ((members _ _).mpr ⟨member, rfl⟩)
  · rw [files]
    constructor
    · rintro ⟨recorded, member, found⟩
      obtain ⟨inside, rfl⟩ := (members _ _).mp member
      exact ⟨inside, found⟩
    · rintro ⟨inside, found⟩
      exact ⟨_, (members _ _).mpr ⟨inside, rfl⟩, found⟩

theorem raise_eq_ok_iff {steps : List ModuleStep} {context : LoadingContext} :
    (assembly.raise steps).outcome = .ok context ↔
      ∃ foundation, (assembly.buildFoundation (accumulated steps)).outcome = .ok foundation ∧
        Raised assembly foundation steps context := by
  unfold raise
  simp only [Logged.outcome_bind, Outcome.bind_eq_ok_iff, foldlM_buildLevel_eq_ok_iff]

/-- **A build yields exactly the raised climbs.** -/
theorem build_eq_ok_iff {module : Coordinate} {context : LoadingContext} :
    (assembly.build module).outcome = .ok context ↔
      ∃ steps, Climb assembly.toGuide [] module steps ∧
        (assembly.raise steps).outcome = .ok context := by
  unfold build walk
  simp only [Logged.outcome_bind, Outcome.bind_eq_ok_iff, outcome_walkFrom_eq_ok_iff,
    Logged.outcome_note, true_and, exists_const]

end ExtensionCatalog.Assembly
