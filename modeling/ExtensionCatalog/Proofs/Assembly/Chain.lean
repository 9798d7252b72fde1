/-
**The chain of a module: how far up it goes and what stands in it.**

* `Raised.modules`, `Raised.parent?_eq_none_iff`: a raised chain has a level for each module and the
  foundation above them;
* `next_module_iff`: the next module is the one that is left;
* `buildWithin`: a build that is cut off after a number of modules;
* `build_of_lockfile`: **a build ends, and its levels are those of the modules on the way up**,
  whatever a lockfile records.
-/

import ExtensionCatalog.Lockfile
import ExtensionCatalog.Proofs.Assembly.Levels

namespace ExtensionCatalog.Assembly

open ModuleChain

variable {assembly : Assembly}

/-! ### The levels of a raised chain -/

section Raised

variable {foundation context : LoadingContext} {steps : List ModuleStep}

theorem Raised.modules (raised : Raised assembly foundation steps context) :
    context.levels.map (·.module) =
      (steps.map (·.module)).map some ++ foundation.levels.map (·.module) := by
  induction raised with
  | foundation => rfl
  | level outer located hypothesis =>
    rw [LoadingContext.extend, LoadingContext.levels_child, List.map_cons, hypothesis]
    rfl

/-- Above a foundation of one level, the levels of modules have parents and it has none. -/
theorem Raised.parent?_eq_none_iff {level : Level} (shared : level.module = none)
    (raised : Raised assembly (.root level) steps context) :
    ∀ ancestor ∈ context.ancestry, ancestor.parent? = none ↔ ancestor.level.module = none := by
  induction raised with
  | foundation =>
    intro ancestor above
    cases List.mem_singleton.mp above
    exact iff_of_true rfl shared
  | level outer located hypothesis =>
    intro ancestor above
    rcases List.mem_cons.mp above with rfl | further
    · exact iff_of_false (fun equal => by cases equal) (fun equal => by cases equal)
    · exact hypothesis ancestor further

end Raised

/-! ### The modules of a climb -/

/-- The next module of a climb is the one that a module depends on, the modules up to it and the
excluded artifacts left out. -/
theorem next_module_iff {guide : Guide} {root : Coordinate} {steps : List ModuleStep}
    (climb : Climb guide [] root steps) {place : Nat} {module : Coordinate}
    (here : (steps.map (·.module))[place]? = some module) :
    ∃ set, guide.provider.dependencies module = .ok set ∧ ∀ candidate,
      (steps.map (·.module))[place + 1]? = some candidate ↔
        guide.foundation.isModule candidate = true ∧ set.contains candidate = true ∧
          candidate ∉ (steps.map (·.module)).take (place + 1) ∧ candidate ∉ guide.excluded := by
  rw [List.getElem?_map, Option.map_eq_some_iff] at here
  obtain ⟨step, there, rfl⟩ := here
  obtain ⟨-, chosen, next⟩ := climb.at_place there
  obtain ⟨set, answered, whole, -⟩ := climb.find?_dependencies there
  refine ⟨set, answered, fun candidate => ?_⟩
  rw [← next, eq_parent_iff chosen, whole]
  by_cases removed :
      candidate ∈ (steps.map (·.module)).take (place + 1) ∨ candidate ∈ guide.excluded
  · rw [if_pos removed]
    refine iff_of_false (by simp) ?_
    rintro ⟨-, -, first, second⟩
    exact removed.elim first second
  · rw [if_neg removed]
    rw [not_or] at removed
    exact ⟨fun ⟨typed, there⟩ => ⟨typed, there, removed⟩, fun ⟨typed, there, _⟩ => ⟨typed, there⟩⟩

/-! ### Builds -/

/-- A build whose walk is cut off after a number of modules; no result if the walk has not ended by
then. -/
def buildWithin (assembly : Assembly) (rounds : Nat) (root : Coordinate) :
    Option (Logged LoadingContext) :=
  (walkWithin assembly.toGuide rounds root []).map fun walked => do
    .note .info s!"Building loading contexts for {root}"
    assembly.raise (← walked)

theorem buildWithin_eq_some {rounds : Nat} (enough : assembly.provider.listed.length < rounds)
    (root : Coordinate) : assembly.buildWithin rounds root = some (assembly.build root) := by
  have unmet : (unvisited assembly.toGuide []).length < rounds :=
    Nat.lt_of_le_of_lt (List.length_filter_le ..) enough
  rw [buildWithin, walkWithin_eq_some List.not_mem_nil unmet]
  rfl

/-- What a build that is cut off yields is what the build yields. -/
theorem outcome_build_of_buildWithin {rounds : Nat}
    (enough : assembly.provider.listed.length < rounds) {root : Coordinate}
    {context : LoadingContext}
    (computed : (assembly.buildWithin rounds root).bind (·.outcome.toOption) = some context) :
    (assembly.build root).outcome = .ok context := by
  rw [buildWithin_eq_some enough, Option.bind_some] at computed
  cases built : (assembly.build root).outcome with
  | error error =>
    rw [built] at computed
    cases computed
  | ok other =>
    rw [built] at computed
    cases computed
    rfl

/-- **A build ends, and its levels are those of the modules on the way up.** A build on a lockfile
of any artifacts has ended after one module more than the lockfile lists. The levels of its context
belong to distinct modules, the root first, each followed by the only module that it depends on, the
modules before it and the excluded artifacts left out, and the last one by the shared level, which
alone has no parent. -/
theorem build_of_lockfile (lockfile : DependencyLockfile) (assembly : Assembly)
    (recorded : assembly.provider = lockfile.provider) (root : Coordinate) :
    (∀ rounds, lockfile.size < rounds →
      assembly.buildWithin rounds root = some (assembly.build root)) ∧
    ∀ context, (assembly.build root).outcome = .ok context →
      ∃ modules : List Coordinate, modules.head? = some root ∧ modules.Nodup ∧
        context.levels.map (·.module) = modules.map some ++ [none] ∧
        (∀ ancestor ∈ context.ancestry,
          ancestor.parent? = none ↔ ancestor.level.module = none) ∧
        (∀ place module, modules[place]? = some module →
          ∃ set, lockfile.dependencies module = .ok set ∧ ∀ candidate,
            modules[place + 1]? = some candidate ↔
              assembly.foundation.isModule candidate = true ∧ set.contains candidate = true ∧
                candidate ∉ modules.take (place + 1) ∧ candidate ∉ assembly.excluded) ∧
        context.depth = modules.length + 1 ∧ context.depth ≤ lockfile.size + 1 := by
  have listed : assembly.provider.listed.length = lockfile.size := by
    rw [recorded]
    exact List.length_map ..
  constructor
  · intro rounds enough
    exact buildWithin_eq_some (by rw [listed]; exact enough) root
  · intro context built
    obtain ⟨steps, climb, built⟩ := build_eq_ok_iff.mp built
    obtain ⟨foundation, founded, raised⟩ := raise_eq_ok_iff.mp built
    obtain ⟨-, artifacts, -, -, rfl⟩ := buildFoundation_eq_ok_iff.mp founded
    have tags := raised.modules
    have depth : context.depth = steps.length + 1 := by
      rw [← LoadingContext.length_levels, ← List.length_map, tags]
      simp [LoadingContext.foundationOf]
    have bound : steps.length ≤ lockfile.size := by
      rw [← listed]
      exact Nat.le_trans (climb.length_le List.not_mem_nil) (List.length_filter_le ..)
    refine ⟨steps.map (·.module), climb.head?, (climb.nodup List.not_mem_nil).1, tags,
      raised.parent?_eq_none_iff rfl, fun place module here => ?_, ?_, ?_⟩
    · have next := next_module_iff climb here
      rw [recorded] at next
      exact next
    · rw [depth, List.length_map]
    · omega

/-- A module that depends on itself and on its parent. -/
def leafModule : Coordinate := ⟨"org.example", "leaf", "1", "nar", none⟩

/-- A module that depends on itself and on the module below it. -/
def baseModule : Coordinate := ⟨"org.example", "base", "1", "NAR", none⟩

/-- A library that both modules depend on. -/
def sharedLibrary : Coordinate := .jar "org.example" "shared" "1"

/-- What each of the two modules depends on, the library with the file that it records. -/
def mutualDependencies (file : String) : DependencySet :=
  .ofList [(leafModule, none), (baseModule, none), (.jar "org.apache.nifi" "nifi-api" "2", none),
    (sharedLibrary, some ⟨file⟩)]

/-- Two modules that depend on each other, on themselves, on the framework interface and on a
library. -/
def mutualLockfile : DependencyLockfile :=
  ((∅ : DependencyLockfile).insert leafModule (mutualDependencies "/leaf.jar")).insert baseModule
    (mutualDependencies "/base.jar")

/-- An assembly on `mutualLockfile` with the file that the upper module records. -/
def mutualAssembly : Assembly where
  provider := mutualLockfile.provider
  foundation := {}
  excluded := []
  resolver := fun _ => some ⟨"/"⟩
  tree := ⟨.ofList [(["base.jar"], .file [])], []⟩
  chain := 0

/-- A build on modules that depend on each other has one level for each, and the shared one. -/
theorem build_of_lockfile_mutual :
    mutualAssembly.provider = mutualLockfile.provider ∧ mutualLockfile.size = 2 ∧
      mutualAssembly.buildWithin 3 leafModule = some (mutualAssembly.build leafModule) ∧
      ∃ context, (mutualAssembly.build leafModule).outcome = .ok context ∧
        ∃ modules : List Coordinate, modules.head? = some leafModule ∧ modules.Nodup ∧
          context.levels.map (·.module) = modules.map some ++ [none] ∧
          context.depth = modules.length + 1 ∧ context.depth ≤ mutualLockfile.size + 1 := by
  have size : mutualLockfile.size = 2 := by decide +kernel
  have ends := (build_of_lockfile mutualLockfile mutualAssembly rfl leafModule).1 3 (by omega)
  have known : ((mutualAssembly.buildWithin 3 leafModule).bind (·.outcome.toOption)).isSome := by
    decide +kernel
  obtain ⟨context, computed⟩ := Option.isSome_iff_exists.mp known
  have built := outcome_build_of_buildWithin
    (show mutualAssembly.provider.listed.length < 3 by decide +kernel) computed
  obtain ⟨modules, first, distinct, tags, -, -, depth, bound⟩ :=
    (build_of_lockfile mutualLockfile mutualAssembly rfl leafModule).2 context built
  exact ⟨rfl, size, ends, context, built, modules, first, distinct, tags, depth, bound⟩

end ExtensionCatalog.Assembly
