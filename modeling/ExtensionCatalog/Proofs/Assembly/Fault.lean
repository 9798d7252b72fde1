/-
**Why a build fails.**

A build first walks up all modules, then looks for the versions of what they share, and only then
for files. So a fault of the modules comes before a missing interface, and that before a missing
file, wherever each of them is.

* `firstMissing?`: the first artifact of some that has no file;
* `required`: all artifacts that a build needs a file for, in the order in which it looks for them;
* `FailsAtMissing`: actions that fail at the first artifact without a file, and how they compose;
* `failsAtMissing_levels`, `failsAtMissing_raise`: the levels are such actions;
* `BuildFault`: why a build fails, one case for each stage;
* `build_eq_error_iff`: **a build fails exactly for these reasons**.
-/

import ExtensionCatalog.Proofs.Assembly.Foundation

namespace ExtensionCatalog.Assembly

open ModuleChain

variable {assembly : Assembly}

/-! ### Missing files -/

/-- Whether an artifact has a file: the recorded one or the resolved one exists. -/
def hasFile (assembly : Assembly) (record : Coordinate × Option FilePath) : Bool :=
  record.2.any assembly.tree.exists? || (assembly.resolver record.1).any assembly.tree.exists?

/-- The first artifact without a file. -/
def firstMissing? (assembly : Assembly) (records : List (Coordinate × Option FilePath)) :
    Option Coordinate :=
  (records.find? fun record => !assembly.hasFile record).map (·.1)

section Files

variable {records : List (Coordinate × Option FilePath)} {error : Error}

theorem firstMissing?_append (first second : List (Coordinate × Option FilePath)) :
    assembly.firstMissing? (first ++ second) =
      (assembly.firstMissing? first).or (assembly.firstMissing? second) := by
  rw [firstMissing?, List.find?_append, Option.map_or]
  rfl

theorem locate_eq_error_iff {coordinate : Coordinate} {recorded : Option FilePath} :
    assembly.locate coordinate recorded = .error error ↔
      assembly.hasFile (coordinate, recorded) = false ∧
        error = .unresolvableArtifact coordinate := by
  have found : (((recorded.filter assembly.tree.exists?).or
      ((assembly.resolver coordinate).filter assembly.tree.exists?)).isSome) =
      assembly.hasFile (coordinate, recorded) := by
    rw [Option.isSome_or, Option.isSome_filter, Option.isSome_filter, hasFile]
  rw [locate, ← found]
  cases (recorded.filter assembly.tree.exists?).or
      ((assembly.resolver coordinate).filter assembly.tree.exists?) with
  | some path => simp
  | none => simp [eq_comm]

/-- An artifact with a label is located if it has a file. -/
theorem labelled_eq_error_iff (record : Coordinate × Option FilePath) :
    (do return (record.1, ← assembly.locate record.1 record.2) :
      Except Error (Coordinate × FilePath)) = .error error ↔
    assembly.hasFile record = false ∧ error = .unresolvableArtifact record.1 := by
  rw [Outcome.bind_eq_error_iff, locate_eq_error_iff]
  refine or_iff_left ?_
  rintro ⟨path, -, equal⟩
  cases equal

theorem exists_labelled_iff (record : Coordinate × Option FilePath) :
    (∃ pair, (do return (record.1, ← assembly.locate record.1 record.2) :
      Except Error (Coordinate × FilePath)) = .ok pair) ↔ assembly.hasFile record = true := by
  constructor
  · rintro ⟨pair, labelled⟩
    by_contra missing
    rw [Bool.not_eq_true] at missing
    rw [(labelled_eq_error_iff record).mpr ⟨missing, rfl⟩] at labelled
    cases labelled
  · intro present
    refine (Outcome.ok_or_error _).resolve_right ?_
    rintro ⟨error, failed⟩
    rw [((labelled_eq_error_iff record).mp failed).1] at present
    cases present

/-- An action fails exactly at the first artifact of some that has no file. -/
def FailsAtMissing {α : Type} (assembly : Assembly)
    (records : List (Coordinate × Option FilePath)) (outcome : Except Error α) : Prop :=
  ∀ error, outcome = .error error ↔
    ∃ coordinate, assembly.firstMissing? records = some coordinate ∧
      error = .unresolvableArtifact coordinate

/-- Two actions in a row fail at the first artifact of those of both. -/
theorem FailsAtMissing.bind {α β : Type} {first : Except Error α} {next : α → Except Error β}
    {early late : List (Coordinate × Option FilePath)}
    (fails : FailsAtMissing assembly early first)
    (later : ∀ value, first = .ok value → FailsAtMissing assembly late (next value)) :
    FailsAtMissing assembly (early ++ late) (first >>= next) := by
  intro error
  rw [Outcome.bind_eq_error_iff, firstMissing?_append]
  cases missing : assembly.firstMissing? early with
  | some coordinate =>
    -- The first action fails, so the second one is not taken.
    have failed := (fails _).mpr ⟨coordinate, missing, rfl⟩
    rw [Option.some_or, failed]
    simp [eq_comm]
  | none =>
    have sound : ¬ ∃ other, first = .error other := by
      rintro ⟨other, failed⟩
      obtain ⟨coordinate, found, -⟩ := (fails other).mp failed
      rw [missing] at found
      cases found
    obtain ⟨value, yields⟩ := (Outcome.ok_or_error _).resolve_right sound
    rw [Option.none_or, ← later value yields error, yields]
    simp

/-- Many artifacts are located unless one of them has no file; the first such one counts. -/
theorem failsAtMissing_locateAll :
    FailsAtMissing assembly records (assembly.locateAll records) := by
  intro error
  rw [locateAll, Outcome.bind_eq_error_iff]
  refine (or_iff_left ?_).trans ?_
  · rintro ⟨pairs, -, equal⟩
    cases equal
  simp only [Outcome.mapM_eq_error_iff, exists_labelled_iff, labelled_eq_error_iff, firstMissing?,
    Option.map_eq_some_iff, List.find?_eq_some_iff_append, Bool.not_eq_true', Bool.not_not]
  constructor
  · rintro ⟨before, record, after, whole, present, missing, rfl⟩
    refine ⟨record.1, ⟨record, ⟨missing, before, after, whole, ?_⟩, rfl⟩, rfl⟩
    exact fun earlier member => by rw [present earlier member]
  · rintro ⟨-, ⟨record, ⟨missing, before, after, whole, present⟩, rfl⟩, rfl⟩
    exact ⟨before, record, after, whole, fun earlier member => by
      simpa using present earlier member, missing, rfl⟩

end Files

/-! ### All that a build needs -/

/-- The artifacts that the levels of modules need files for, the outermost level first. A level
needs one for each dependency of its module, in their order, but for those that are shared and those
that a module further up depends on. -/
def levelRequired (shared : List Coordinate) : List ModuleStep → List (Coordinate × Option FilePath)
  | [] => []
  | step :: outer => levelRequired shared outer ++ step.ownDependencies.toList.filter fun record =>
      record.1 ∉ shared ∧ ∀ higher ∈ outer, (higher.ownDependencies.find? record.1).isNone

/-- The artifacts that all modules share, in the order in which their files are looked for. -/
def sharedArtifacts (assembly : Assembly) (version : String) (logging : Option String) :
    List Coordinate :=
  [.jar assembly.foundation.api.group assembly.foundation.api.artifact version,
    .jar assembly.foundation.api.group assembly.foundation.companion version] ++
  logging.toList.map
    (.jar assembly.foundation.logging.group assembly.foundation.logging.artifact)

/-- All artifacts that a build needs files for, in order: those that the modules share, with the
files that the modules record for them, and those of the levels from the outermost one down. -/
def required (assembly : Assembly) (steps : List ModuleStep) (version : String)
    (logging : Option String) : List (Coordinate × Option FilePath) :=
  let shared := assembly.sharedArtifacts version logging
  shared.map (fun coordinate => (coordinate, ((accumulated steps).find? coordinate).join)) ++
    levelRequired shared steps

section Levels

variable {foundation : LoadingContext} {shared : List Coordinate} {steps : List ModuleStep}
  {error : Error}

theorem buildLevel_eq_error_iff {parent : LoadingContext} {step : ModuleStep} :
    (assembly.buildLevel parent step).outcome = .error error ↔
      assembly.locateAll (levelRecords parent step) = .error error := by
  unfold buildLevel
  simp only [Logged.outcome_bind, Outcome.bind_eq_error_iff]
  refine or_iff_left ?_
  rintro ⟨artifacts, -, noted | ⟨-, -, equal⟩⟩
  · cases noted
  · cases equal

/-- What a level adds to a raised chain is what it needs files for. -/
theorem levelRecords_eq {parent : LoadingContext} {step : ModuleStep}
    (outermost : ∀ coordinate, foundation.exposes coordinate = true ↔ coordinate ∈ shared)
    (raised : Raised assembly foundation steps parent) :
    levelRecords parent step = step.ownDependencies.toList.filter fun record =>
      record.1 ∉ shared ∧ ∀ higher ∈ steps, (higher.ownDependencies.find? record.1).isNone := by
  refine List.filter_congr fun record _ => ?_
  rw [Bool.eq_iff_iff, Bool.not_eq_true', ← Bool.not_eq_true, raised.exposes_iff, outermost,
    decide_eq_true_iff, not_or]
  simp

/-- **Where the levels of a chain fail**: at the first artifact without a file. -/
theorem failsAtMissing_levels
    (outermost : ∀ coordinate, foundation.exposes coordinate = true ↔ coordinate ∈ shared) :
    FailsAtMissing assembly (levelRequired shared steps)
      (steps.reverse.foldlM assembly.buildLevel foundation).outcome := by
  induction steps with
  | nil =>
    intro error
    refine iff_of_false (fun equal => by cases equal) ?_
    rintro ⟨coordinate, missing, -⟩
    cases missing
  | cons step steps hypothesis =>
    rw [List.reverse_cons, List.foldlM_append, Logged.outcome_bind]
    simp only [List.foldlM_cons, List.foldlM_nil, bind_pure]
    refine hypothesis.bind fun parent built error => ?_
    rw [buildLevel_eq_error_iff, failsAtMissing_locateAll,
      levelRecords_eq outermost (foldlM_buildLevel_eq_ok_iff.mp built)]

end Levels

section Foundation

variable {accumulated : DependencySet} {error : Error}

/-- The shared artifacts in the versions that the modules depend on. -/
theorem foundationArtifacts_eq_sharedArtifacts {version : String} {logging : Option String}
    (found : VersionOf assembly.provider accumulated assembly.foundation.api version)
    (contract : ∀ other, logging = some other ↔
      VersionOf assembly.provider accumulated assembly.foundation.logging other) :
    (assembly.foundationArtifacts accumulated).outcome =
      .ok (assembly.sharedArtifacts version logging) := by
  refine foundationArtifacts_eq_ok_iff.mpr
    ⟨version, logging, providedVersion_eq_some_iff.mpr found, ?_, rfl⟩
  cases logging with
  | some other => exact providedVersion_eq_some_iff.mpr ((contract other).mp rfl)
  | none =>
    refine providedVersion_eq_none_iff.mpr fun other listed => ?_
    cases (contract other).mpr listed

/-- There are no shared artifacts if the modules depend on no version of the interface. -/
theorem foundationArtifacts_eq_error_iff :
    (assembly.foundationArtifacts accumulated).outcome = .error error ↔
      (∀ version, ¬ VersionOf assembly.provider accumulated assembly.foundation.api version) ∧
        error = .missingApiDependency assembly.foundation.api.group
          assembly.foundation.api.artifact := by
  obtain ⟨found, versions⟩ := exists_version assembly accumulated assembly.foundation.api
  cases found with
  | some version =>
    have listed := (versions version).mp rfl
    obtain ⟨logging, contract⟩ := exists_version assembly accumulated assembly.foundation.logging
    rw [foundationArtifacts_eq_sharedArtifacts listed contract]
    exact iff_of_false (fun equal => by cases equal) fun absent => absent.1 version listed
  | none =>
    have absent : ∀ version,
        ¬ VersionOf assembly.provider accumulated assembly.foundation.api version := by
      intro version listed
      cases (versions version).mpr listed
    rw [foundationArtifacts, Logged.outcome_bind, providedVersion_eq_none_iff.mpr absent]
    refine Iff.trans ?_ (and_iff_right absent).symm
    simp [bind, Except.bind, eq_comm]

/-- **Where a foundation fails**: at a missing interface, or else at the first artifact without a
file. -/
theorem buildFoundation_eq_error_iff :
    (assembly.buildFoundation accumulated).outcome = .error error ↔
      (assembly.foundationArtifacts accumulated).outcome = .error error ∨
      ∃ provided, (assembly.foundationArtifacts accumulated).outcome = .ok provided ∧
        ∃ coordinate, assembly.firstMissing? (provided.map fun coordinate =>
            (coordinate, (accumulated.find? coordinate).join)) = some coordinate ∧
          error = .unresolvableArtifact coordinate := by
  unfold buildFoundation
  simp only [Logged.outcome_bind, Outcome.bind_eq_error_iff, ← failsAtMissing_locateAll _]
  refine or_congr_right (exists_congr fun provided => and_congr_right fun _ => or_iff_left ?_)
  rintro ⟨artifacts, -, equal⟩
  cases equal

end Foundation

/-! ### Builds -/

/-- Why a build fails. -/
inductive BuildFault (assembly : Assembly) (root : Coordinate) : Error → Prop
  /-- A module cannot be passed on the way up. -/
  | refused {before : List Coordinate} {last : Coordinate} {error : Error}
      (reaches : Reaches assembly.toGuide [] root before last)
      (refused : Refused assembly.toGuide before last error) : BuildFault assembly root error
  /-- The modules are fine, but they depend on no version of the framework interface. -/
  | missingInterface {steps : List ModuleStep} (climb : Climb assembly.toGuide [] root steps)
      (absent : ∀ version,
        ¬ VersionOf assembly.provider (accumulated steps) assembly.foundation.api version) :
      BuildFault assembly root (.missingApiDependency assembly.foundation.api.group
        assembly.foundation.api.artifact)
  /-- The modules are fine and there is an interface, but an artifact has no file. -/
  | missingFile {steps : List ModuleStep} {version : String} {logging : Option String}
      {coordinate : Coordinate} (climb : Climb assembly.toGuide [] root steps)
      (found : VersionOf assembly.provider (accumulated steps) assembly.foundation.api version)
      (contract : ∀ other, logging = some other ↔
        VersionOf assembly.provider (accumulated steps) assembly.foundation.logging other)
      (first : assembly.firstMissing? (assembly.required steps version logging) =
        some coordinate) :
      BuildFault assembly root (.unresolvableArtifact coordinate)

section Built

variable {root : Coordinate} {steps : List ModuleStep} {error : Error}

/-- The foundation of modules with an interface fails at the first shared artifact without a
file. -/
theorem failsAtMissing_foundation {accumulated : DependencySet} {version : String}
    {logging : Option String}
    (found : VersionOf assembly.provider accumulated assembly.foundation.api version)
    (contract : ∀ other, logging = some other ↔
      VersionOf assembly.provider accumulated assembly.foundation.logging other) :
    FailsAtMissing assembly ((assembly.sharedArtifacts version logging).map
      fun coordinate => (coordinate, (accumulated.find? coordinate).join))
      (assembly.buildFoundation accumulated).outcome := by
  intro error
  rw [buildFoundation_eq_error_iff, foundationArtifacts_eq_sharedArtifacts found contract]
  simp

/-- The levels of modules with an interface fail at the first artifact without a file. -/
theorem failsAtMissing_raise {version : String} {logging : Option String}
    (found : VersionOf assembly.provider (accumulated steps) assembly.foundation.api version)
    (contract : ∀ other, logging = some other ↔
      VersionOf assembly.provider (accumulated steps) assembly.foundation.logging other) :
    FailsAtMissing assembly (assembly.required steps version logging)
      (assembly.raise steps).outcome := by
  unfold raise
  rw [Logged.outcome_bind]
  refine (failsAtMissing_foundation found contract).bind fun foundation built =>
    failsAtMissing_levels fun coordinate => ?_
  obtain ⟨provided, artifacts, chosen, rfl, holds, -⟩ := exists_provided_of_buildFoundation built
  rw [foundationArtifacts_eq_sharedArtifacts found contract] at chosen
  cases chosen
  rw [← holds, LoadingContext.foundationOf, LoadingContext.exposes, LoadingContext.levels_root,
    List.any_cons, List.any_nil, Bool.or_false]
  rfl

/-- Modules without an interface have no levels. -/
theorem raise_eq_error_iff_of_absent (absent : ∀ version,
      ¬ VersionOf assembly.provider (accumulated steps) assembly.foundation.api version) :
    (assembly.raise steps).outcome = .error error ↔
      error = .missingApiDependency assembly.foundation.api.group
        assembly.foundation.api.artifact := by
  have failed := foundationArtifacts_eq_error_iff.mpr ⟨absent, rfl⟩
  have founding := buildFoundation_eq_error_iff.mpr (.inl failed)
  unfold raise
  rw [Logged.outcome_bind, founding]
  simp [bind, Except.bind, eq_comm]

/-- **A build fails exactly for these reasons.** -/
theorem build_eq_error_iff :
    (assembly.build root).outcome = .error error ↔ BuildFault assembly root error := by
  unfold build walk
  simp only [Logged.outcome_bind, Logged.outcome_note, Outcome.bind_eq_error_iff, reduceCtorEq,
    false_or, true_and, exists_const, outcome_walkFrom_eq_error_iff, outcome_walkFrom_eq_ok_iff]
  constructor
  · rintro (⟨before, last, reaches, refused⟩ | ⟨steps, climb, failed⟩)
    · exact .refused reaches refused
    · obtain ⟨found, versions⟩ :=
        exists_version assembly (accumulated steps) assembly.foundation.api
      cases found with
      | none =>
        have absent : ∀ version,
            ¬ VersionOf assembly.provider (accumulated steps) assembly.foundation.api version := by
          intro version listed
          cases (versions version).mpr listed
        rw [(raise_eq_error_iff_of_absent absent).mp failed]
        exact .missingInterface climb absent
      | some version =>
        have listed := (versions version).mp rfl
        obtain ⟨logging, contract⟩ :=
          exists_version assembly (accumulated steps) assembly.foundation.logging
        obtain ⟨coordinate, first, rfl⟩ := (failsAtMissing_raise listed contract _).mp failed
        exact .missingFile climb listed contract first
  · rintro (⟨reaches, refused⟩ | ⟨climb, absent⟩ | ⟨climb, found, contract, first⟩)
    · exact .inl ⟨_, _, reaches, refused⟩
    · exact .inr ⟨_, climb, (raise_eq_error_iff_of_absent absent).mpr rfl⟩
    · exact .inr ⟨_, climb, (failsAtMissing_raise found contract _).mpr ⟨_, first, rfl⟩⟩

/-- A fault that is no missing file is there wherever files are. -/
theorem BuildFault.of_files (fault : BuildFault assembly root error)
    (other : ∀ coordinate, error ≠ .unresolvableArtifact coordinate) (resolver : ArtifactResolver)
    (tree : FileTree) : BuildFault { assembly with resolver, tree } root error := by
  cases fault with
  | refused reaches refused => exact .refused reaches refused
  | missingInterface climb absent => exact .missingInterface climb absent
  | missingFile => exact absurd rfl (other _)

end Built

/-- **The first fault of a build.** A build fails exactly for one of these reasons, in this order:
walking up from the root module, a module whose dependencies cannot be told or that depends on
several modules; after all modules, that no version of the framework interface is found; after that,
the first artifact without a file, those of the foundation first and then those of the levels from
the outermost one down. It succeeds exactly if there is no such fault, and there is at most one.
What files there are decides about missing files alone. -/
theorem build_first_fault (assembly : Assembly) (root : Coordinate) :
    (∀ error, (assembly.build root).outcome = .error error ↔ BuildFault assembly root error) ∧
    ((∃ context, (assembly.build root).outcome = .ok context) ↔
      ∀ error, ¬ BuildFault assembly root error) ∧
    (∀ first second, BuildFault assembly root first → BuildFault assembly root second →
      first = second) ∧
    ∀ resolver tree error, (∀ coordinate, error ≠ .unresolvableArtifact coordinate) →
      ((assembly.build root).outcome = .error error ↔
        ({ assembly with resolver, tree }.build root).outcome = .error error) := by
  refine ⟨fun error => build_eq_error_iff, ?_, fun first second one two => ?_,
    fun resolver tree error other => ?_⟩
  · simp only [← build_eq_error_iff]
    cases (assembly.build root).outcome with
    | ok context => simp
    | error error => simp
  · rw [← build_eq_error_iff] at one two
    rw [one] at two
    cases two
    rfl
  · rw [build_eq_error_iff, build_eq_error_iff]
    exact ⟨fun fault => fault.of_files other resolver tree, fun fault =>
      fault.of_files other assembly.resolver assembly.tree⟩

end ExtensionCatalog.Assembly
