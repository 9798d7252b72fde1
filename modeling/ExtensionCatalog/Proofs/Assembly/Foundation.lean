/-
**The foundation that the modules of a chain share.**

The foundation holds the framework interface and its companion in one version, and the logging
contract if the modules depend on it. The versions come from what all modules of the chain depend
on; the files too, the record nearest to the first module first.

* `IsShared`: the artifacts of a foundation;
* `foundation_spec`: a foundation holds these artifacts, each with a file that exists;
* `apiVersion_of_isShared`: the version that a report shows is that of the framework interface;
* `build_foundation`: **what the foundation of a build holds**, and what its versions depend on.
-/

import ExtensionCatalog.Proofs.Assembly.Exposure
import ExtensionCatalog.Proofs.Assembly.Version
import ExtensionCatalog.Proofs.DependencySet
import ExtensionCatalog.Proofs.ModuleChain.Refusal
import ExtensionCatalog.Report

namespace ExtensionCatalog.Assembly

open ModuleChain

variable {assembly : Assembly}

/-! ### The artifacts of a foundation -/

section Shared

variable {accumulated : DependencySet} {version : String} {coordinate : Coordinate}

/-- The artifacts that all modules share, the framework interface in a version: the interface, its
companion in the same version, and the logging contract in its own version if it has any. -/
def IsShared (assembly : Assembly) (accumulated : DependencySet) (version : String)
    (coordinate : Coordinate) : Prop :=
  coordinate = .jar assembly.foundation.api.group assembly.foundation.api.artifact version ∨
  coordinate = .jar assembly.foundation.api.group assembly.foundation.companion version ∨
  ∃ logging, VersionOf assembly.provider accumulated assembly.foundation.logging logging ∧
    coordinate = .jar assembly.foundation.logging.group assembly.foundation.logging.artifact logging

/-- The artifacts of a foundation are the shared ones. -/
theorem exists_version_of_foundationArtifacts {provided : List Coordinate}
    (chosen : (assembly.foundationArtifacts accumulated).outcome = .ok provided) :
    ∃ version, VersionOf assembly.provider accumulated assembly.foundation.api version ∧
      ∀ coordinate, coordinate ∈ provided ↔ IsShared assembly accumulated version coordinate := by
  obtain ⟨version, logging, interface, contract, rfl⟩ := foundationArtifacts_eq_ok_iff.mp chosen
  refine ⟨version, providedVersion_eq_some_iff.mp interface, fun coordinate => ?_⟩
  have loggingVersion : ∀ other, other ∈ logging.toList ↔
      VersionOf assembly.provider accumulated assembly.foundation.logging other := by
    intro other
    rw [← providedVersion_eq_some_iff, contract, Except.ok.injEq, Option.mem_toList]
  simp only [IsShared, List.mem_append, List.mem_pair, List.mem_map, loggingVersion, or_assoc,
    eq_comm (a := coordinate)]

/-- The artifacts of a foundation are the ones it was made for. -/
theorem exists_provided_of_buildFoundation {context : LoadingContext}
    (founded : (assembly.buildFoundation accumulated).outcome = .ok context) :
    ∃ provided artifacts, (assembly.foundationArtifacts accumulated).outcome = .ok provided ∧
      context = .foundationOf assembly.tree assembly.chain none artifacts ∧
      (∀ coordinate, artifacts.contains coordinate = true ↔ coordinate ∈ provided) ∧
      ∀ coordinate path, artifacts.find? coordinate = some path →
        assembly.locate coordinate (accumulated.find? coordinate).join = .ok path := by
  obtain ⟨provided, artifacts, chosen, rfl, all, files⟩ := buildFoundation_spec founded
  refine ⟨provided, artifacts, chosen, rfl, fun coordinate => ?_, fun coordinate path here =>
    ((files _ _).mp here).2⟩
  rw [SortedMap.contains, Option.isSome_iff_exists]
  constructor
  · rintro ⟨path, here⟩
    exact ((files _ _).mp here).1
  · intro member
    obtain ⟨path, located⟩ := all coordinate member
    exact ⟨path, (files _ _).mpr ⟨member, located⟩⟩

/-- **A foundation holds the shared artifacts.** The file of each exists; it is the one recorded by
the modules if that exists, and the resolved one otherwise. -/
theorem foundation_spec {context : LoadingContext}
    (founded : (assembly.buildFoundation accumulated).outcome = .ok context) :
    ∃ version artifacts, VersionOf assembly.provider accumulated assembly.foundation.api version ∧
      context = .foundationOf assembly.tree assembly.chain none artifacts ∧
      (∀ coordinate, artifacts.contains coordinate = true ↔
        IsShared assembly accumulated version coordinate) ∧
      ∀ coordinate path, artifacts.find? coordinate = some path →
        assembly.tree.exists? path = true ∧
          (accumulated.find? coordinate = some (some path) ∨
            (∀ file, accumulated.find? coordinate = some (some file) →
              assembly.tree.exists? file = false) ∧
              assembly.resolver coordinate = some path) := by
  obtain ⟨provided, artifacts, chosen, rfl, holds, files⟩ :=
    exists_provided_of_buildFoundation founded
  obtain ⟨version, found, members⟩ := exists_version_of_foundationArtifacts chosen
  refine ⟨version, artifacts, found, rfl, fun coordinate => (holds coordinate).trans (members _),
    fun coordinate path here => ?_⟩
  simpa only [locate_eq_ok_iff, Option.join_eq_some_iff] using files coordinate path here

/-- Every shared artifact with the name of the framework interface has its version. -/
theorem IsShared.version_eq
    (found : VersionOf assembly.provider accumulated assembly.foundation.api version)
    (shared : IsShared assembly accumulated version coordinate)
    (holds : assembly.foundation.api.holds coordinate = true) : coordinate.version = version := by
  rcases shared with rfl | rfl | ⟨logging, contract, rfl⟩
  · rfl
  · rfl
  · -- The logging contract has the name of the interface, so it is the same key.
    have same : assembly.foundation.logging = assembly.foundation.api := by
      simp only [ArtifactKey.holds, Coordinate.isArtifact, Coordinate.jar, Bool.and_eq_true,
        beq_iff_eq] at holds
      exact (ArtifactKey.mk.injEq ..).mpr holds
    rw [same] at contract
    exact contract.unique found

/-- The version that a report shows is that of the framework interface. -/
theorem apiVersion_of_isShared {context : LoadingContext}
    (found : VersionOf assembly.provider accumulated assembly.foundation.api version)
    (shared : ∀ coordinate, context.foundation.artifacts.contains coordinate = true ↔
      IsShared assembly accumulated version coordinate) :
    assembly.apiVersion context = some version := by
  have interface : context.foundation.artifacts.contains
      (.jar assembly.foundation.api.group assembly.foundation.api.artifact version) = true :=
    (shared _).mpr (.inl rfl)
  rw [apiVersion, Option.map_eq_some_iff]
  cases first : context.foundation.artifacts.keys.find? assembly.foundation.api.holds with
  | none =>
    have absent := List.find?_eq_none.mp first _
      ((SortedMap.mem_keys_iff_contains ..).mpr interface)
    simp [ArtifactKey.holds, Coordinate.isArtifact, Coordinate.jar] at absent
  | some coordinate =>
    have listed := (SortedMap.mem_keys_iff_contains ..).mp (List.mem_of_find?_eq_some first)
    exact ⟨coordinate, rfl,
      ((shared coordinate).mp listed).version_eq found (List.find?_some first)⟩

end Shared

/-! ### Builds -/

section Built

variable {root : Coordinate} {context : LoadingContext}

/-- A build has the foundation of its climb, and below it a level for each module. -/
theorem exists_climb_of_build (built : (assembly.build root).outcome = .ok context) :
    ∃ steps level, Climb assembly.toGuide [] root steps ∧
      (assembly.buildFoundation (accumulated steps)).outcome = .ok (.root level) ∧
      level.module = none ∧ context.foundation = level ∧
      Raised assembly (.root level) steps context := by
  obtain ⟨steps, climb, built⟩ := build_eq_ok_iff.mp built
  obtain ⟨foundation, founded, raised⟩ := raise_eq_ok_iff.mp built
  obtain ⟨-, artifacts, -, -, rfl⟩ := buildFoundation_eq_ok_iff.mp founded
  exact ⟨steps, _, climb, founded, rfl, raised.foundation_eq, raised⟩

/-- The foundation of a build holds what the modules of its climb share. -/
theorem foundation_of_climb {steps : List ModuleStep} {level : Level}
    (founded : (assembly.buildFoundation (accumulated steps)).outcome = .ok (.root level)) :
    ∃ version, VersionOf assembly.provider (accumulated steps) assembly.foundation.api version ∧
      (∀ coordinate, level.artifacts.contains coordinate = true ↔
        IsShared assembly (accumulated steps) version coordinate) ∧
      ∀ coordinate path, level.artifacts.find? coordinate = some path →
        assembly.tree.exists? path = true ∧
          ((accumulated steps).find? coordinate = some (some path) ∨
            (∀ file, (accumulated steps).find? coordinate = some (some file) →
              assembly.tree.exists? file = false) ∧
              assembly.resolver coordinate = some path) := by
  obtain ⟨version, artifacts, found, equal, shared, files⟩ := foundation_spec founded
  cases equal
  exact ⟨version, found, shared, files⟩

end Built

/-- **What the foundation of a build holds.** The modules of the chain are asked for their
dependencies, the modules up to each and the excluded artifacts left out; of several records of a
coordinate the one nearest to the root module counts. The foundation holds exactly the framework
interface in the version that these dependencies lead to, its companion in the same version, and the
logging contract if they lead to a version of it. Each file exists; it is the recorded one if that
exists, and the resolved one otherwise. A report shows the version of the interface. As long as the
modules of the chain have the same dependencies, an artifact that is among these keeps its version,
whatever other artifacts depend on. -/
theorem build_foundation (assembly : Assembly) (root : Coordinate) (context : LoadingContext)
    (built : (assembly.build root).outcome = .ok context) :
    ∃ (steps : List ModuleStep) (version : String),
      context.levels.map (·.module) = (steps.map (·.module)).map some ++ [none] ∧
      (∀ place step, steps[place]? = some step →
        ∃ answer, assembly.provider.dependencies step.module = .ok answer ∧
          ∀ coordinate, step.dependencies.find? coordinate =
            if coordinate ∈ (steps.map (·.module)).take (place + 1) ∨
              coordinate ∈ assembly.excluded
            then none else answer.find? coordinate) ∧
      (∀ coordinate recorded, (accumulated steps).find? coordinate = some recorded ↔
        ∃ before step after, steps = before ++ step :: after ∧
          step.dependencies.find? coordinate = some recorded ∧
          ∀ nearer ∈ before, nearer.dependencies.find? coordinate = none) ∧
      VersionOf assembly.provider (accumulated steps) assembly.foundation.api version ∧
      (∀ coordinate, context.foundation.artifacts.contains coordinate = true ↔
        IsShared assembly (accumulated steps) version coordinate) ∧
      (∀ coordinate path, context.foundation.artifacts.find? coordinate = some path →
        assembly.tree.exists? path = true ∧
          ((accumulated steps).find? coordinate = some (some path) ∨
            (∀ file, (accumulated steps).find? coordinate = some (some file) →
              assembly.tree.exists? file = false) ∧
              assembly.resolver coordinate = some path)) ∧
      assembly.apiVersion context = some version ∧
      ∀ provider : DependencyProvider,
        (∀ step ∈ steps,
          provider.dependencies step.module = assembly.provider.dependencies step.module) →
        ∀ other, ({ assembly with provider }.build root).outcome = .ok other →
          ∃ otherVersion,
            (∀ coordinate, other.foundation.artifacts.contains coordinate = true ↔
              IsShared { assembly with provider } (accumulated steps) otherVersion coordinate) ∧
            ((∃ coordinate, (accumulated steps).contains coordinate = true ∧
                assembly.foundation.api.holds coordinate = true) → otherVersion = version) ∧
            ((∃ coordinate, (accumulated steps).contains coordinate = true ∧
                assembly.foundation.logging.holds coordinate = true) →
              ∀ logging,
                VersionOf provider (accumulated steps) assembly.foundation.logging logging ↔
                  VersionOf assembly.provider (accumulated steps) assembly.foundation.logging
                    logging) := by
  obtain ⟨steps, level, climb, founded, shared, rfl, raised⟩ := exists_climb_of_build built
  obtain ⟨version, found, members, files⟩ := foundation_of_climb founded
  refine ⟨steps, version, ?_, fun place step here => ?_,
    fun coordinate recorded => find?_accumulated_eq_some_iff, found, members, files,
    apiVersion_of_isShared found members, fun provider same other built => ?_⟩
  · rw [raised.modules, LoadingContext.levels_root, List.map_singleton, shared]
  · obtain ⟨answer, answered, whole, -⟩ := climb.find?_dependencies here
    exact ⟨answer, answered, whole⟩
  · obtain ⟨otherSteps, otherLevel, otherClimb, otherFounded, -, rfl, -⟩ :=
      exists_climb_of_build built
    have equal : otherSteps = steps := otherClimb.unique (climb.congr same) List.not_mem_nil
    subst equal
    obtain ⟨otherVersion, otherFound, otherMembers, -⟩ := foundation_of_climb otherFounded
    refine ⟨otherVersion, otherMembers, fun direct => ?_,
      fun direct logging => VersionOf.congr direct⟩
    exact ((VersionOf.congr direct).mp otherFound).unique found

/-- A library whose dependencies nobody can tell. -/
def unlistedLibrary : Coordinate := .jar "org.example" "private" "1"

/-- The logging contract. -/
def loggingContract : Coordinate := .jar "org.slf4j" "slf4j-api" "1.7"

/-- A module that depends on two libraries and on the logging contract; only the second library is
listed, with the framework interface and the logging contract. -/
def relayLockfile : DependencyLockfile :=
  ((∅ : DependencyLockfile).insert leafModule
      (.ofList [(unlistedLibrary, none), (sharedLibrary, none), (loggingContract, none)])).insert
    sharedLibrary (.ofList [(.jar "org.apache.nifi" "nifi-api" "2", none), (loggingContract, none)])

/-- An assembly on `relayLockfile`. -/
def relayAssembly (excluded : List Coordinate) : Assembly where
  provider := relayLockfile.provider
  foundation := {}
  excluded := excluded
  resolver := fun _ => some ⟨"/"⟩
  tree := ⟨∅, []⟩
  chain := 0

/-- The interface is found through the second library, since nobody answers for the first one. -/
theorem build_foundation_relay :
    ∃ context, ((relayAssembly []).build leafModule).outcome = .ok context ∧
      (relayAssembly []).apiVersion context = some "2" ∧
      context.foundation.artifacts.contains (.jar "org.apache.nifi" "nifi-framework-api" "2") =
        true ∧
      ∀ coordinate path, context.foundation.artifacts.find? coordinate = some path →
        (relayAssembly []).tree.exists? path = true := by
  have known : (((relayAssembly []).buildWithin 3 leafModule).bind (·.outcome.toOption)).map
      (relayAssembly []).apiVersion = some (some "2") := by
    decide +kernel
  obtain ⟨context, computed, shown⟩ := Option.map_eq_some_iff.mp known
  have built := outcome_build_of_buildWithin
    (show (relayAssembly []).provider.listed.length < 3 by decide +kernel) computed
  obtain ⟨steps, version, -, -, -, -, members, files, reported, -⟩ :=
    build_foundation (relayAssembly []) leafModule context built
  rw [shown] at reported
  cases reported
  exact ⟨context, built, shown, (members _).mpr (.inr (.inl rfl)), fun coordinate path here =>
    (files coordinate path here).1⟩

end ExtensionCatalog.Assembly
