/-
**Where excluded artifacts are exposed.**

Exclusion takes artifacts out of what the modules depend on. The foundation is made of versions that
are found there, or through artifacts that are found there, and nothing is taken out of it again.

* `not_mem_excluded_of_levels`: no level of a module has an excluded artifact;
* `build_excluded`: **an excluded artifact is exposed exactly if it is a shared one**;
* `excluded_logging_exposed`: so exclusion does not reach every level.
-/

import ExtensionCatalog.Proofs.Assembly.Foundation

namespace ExtensionCatalog.Assembly

open ModuleChain

variable {assembly : Assembly}

section Levels

variable {root : Coordinate} {steps : List ModuleStep} {foundation context : LoadingContext}

/-- What a module has for its own level is not excluded. -/
theorem not_mem_excluded_of_ownDependencies (climb : Climb assembly.toGuide [] root steps)
    {step : ModuleStep} (member : step ∈ steps) {coordinate : Coordinate}
    (own : (step.ownDependencies.find? coordinate).isSome) : coordinate ∉ assembly.excluded := by
  obtain ⟨place, there⟩ := List.mem_iff_getElem?.mp member
  obtain ⟨recorded, own⟩ := Option.isSome_iff_exists.mp own
  obtain ⟨-, -, -, -, kept⟩ := (climb.find?_ownDependencies_eq_some_iff there).mp own
  exact kept

/-- No level of a module has an excluded artifact. -/
theorem not_mem_excluded_of_levels (climb : Climb assembly.toGuide [] root steps) {shared : Level}
    (untagged : shared.module = none) (raised : Raised assembly (.root shared) steps context) :
    ∀ level ∈ context.levels, level.module ≠ none → ∀ coordinate,
      level.artifacts.contains coordinate = true → coordinate ∉ assembly.excluded := by
  intro level member tagged coordinate here
  rcases raised.mem_levels level member with outermost | ⟨step, origin, -, facts⟩
  · rw [List.mem_singleton.mp outermost] at tagged
    exact absurd untagged tagged
  · obtain ⟨path, found⟩ := Option.isSome_iff_exists.mp here
    obtain ⟨recorded, own, -⟩ := facts coordinate path found
    exact not_mem_excluded_of_ownDependencies climb origin (Option.isSome_of_eq_some own)

end Levels

/-- **An excluded artifact is exposed exactly if it is a shared one.** No level of a module has it.
The foundation has it if it is the framework interface or its companion in the version that the
modules of the chain depend on, or the logging contract in the version that they depend on. -/
theorem build_excluded (assembly : Assembly) (root : Coordinate) (context : LoadingContext)
    (built : (assembly.build root).outcome = .ok context) :
    ∃ steps version, context.levels.map (·.module) = (steps.map (·.module)).map some ++ [none] ∧
      Climb assembly.toGuide [] root steps ∧
      VersionOf assembly.provider (accumulated steps) assembly.foundation.api version ∧
      (∀ level ∈ context.levels, level.module ≠ none →
        ∀ coordinate ∈ assembly.excluded, level.artifacts.contains coordinate = false) ∧
      ∀ coordinate ∈ assembly.excluded,
        context.exposes coordinate = true ↔
          IsShared assembly (accumulated steps) version coordinate := by
  obtain ⟨steps, level, climb, founded, shared, rfl, raised⟩ := exists_climb_of_build built
  obtain ⟨version, found, members, -⟩ := foundation_of_climb founded
  refine ⟨steps, version, ?_, climb, found, fun level member tagged coordinate excluded => ?_,
    fun coordinate excluded => ?_⟩
  · rw [raised.modules, LoadingContext.levels_root, List.map_singleton, shared]
  · rw [← Bool.not_eq_true]
    intro here
    exact not_mem_excluded_of_levels climb shared raised level member tagged coordinate here
      excluded
  · rw [raised.exposes_iff, ← members]
    have outermost : (LoadingContext.root context.foundation).exposes coordinate =
        context.foundation.artifacts.contains coordinate := by
      simp [LoadingContext.exposes]
    rw [outermost]
    refine or_iff_left ?_
    rintro ⟨step, member, own⟩
    exact not_mem_excluded_of_ownDependencies climb member own excluded

/-- A build from which the logging contract is excluded exposes it: the modules depend on it through
a library. -/
theorem exists_build_relay :
    ∃ context, ((relayAssembly [loggingContract]).build leafModule).outcome = .ok context ∧
      context.exposes loggingContract = true := by
  have known : (((relayAssembly [loggingContract]).buildWithin 3 leafModule).bind
      (·.outcome.toOption)).map (·.exposes loggingContract) = some true := by
    decide +kernel
  obtain ⟨context, computed, exposed⟩ := Option.map_eq_some_iff.mp known
  exact ⟨context, outcome_build_of_buildWithin
    (show (relayAssembly [loggingContract]).provider.listed.length < 3 by decide +kernel) computed,
    exposed⟩

/-- The level of the module leaves the logging contract out, and the foundation shares it. -/
theorem build_excluded_relay :
    ∃ context, ((relayAssembly [loggingContract]).build leafModule).outcome = .ok context ∧
      loggingContract ∈ (relayAssembly [loggingContract]).excluded ∧
      (∀ level ∈ context.levels, level.module ≠ none →
        level.artifacts.contains loggingContract = false) ∧
      ∃ steps version, IsShared (relayAssembly [loggingContract]) (accumulated steps) version
        loggingContract := by
  obtain ⟨context, built, exposed⟩ := exists_build_relay
  have excluded : loggingContract ∈ (relayAssembly [loggingContract]).excluded :=
    List.mem_singleton_self _
  obtain ⟨steps, version, -, -, -, clean, shared⟩ :=
    build_excluded (relayAssembly [loggingContract]) leafModule context built
  exact ⟨context, built, excluded, fun level member tagged =>
    clean level member tagged loggingContract excluded, steps, version,
    (shared loggingContract excluded).mp exposed⟩

/-- Exclusion does not reach every level. -/
theorem excluded_logging_exposed :
    ¬ ∀ (assembly : Assembly) (root : Coordinate) (context : LoadingContext),
      (assembly.build root).outcome = .ok context →
        ∀ level ∈ context.levels, ∀ coordinate ∈ assembly.excluded,
          level.artifacts.contains coordinate = false := by
  intro everywhere
  obtain ⟨context, built, exposed⟩ := exists_build_relay
  obtain ⟨level, member, here⟩ := List.any_eq_true.mp exposed
  rw [everywhere _ _ context built level member loggingContract (List.mem_singleton_self _)] at here
  cases here

end ExtensionCatalog.Assembly
