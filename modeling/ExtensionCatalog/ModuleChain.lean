/-
**The chain of modules above a module.**

A module depends on at most one other module, its parent. Walking from parent to parent ends,
because the modules met before are left out of the dependencies of the next one and dependencies
are known of finitely many artifacts only.

* `ModuleChain.walk`: the modules on the way up, each with its dependencies;
* `ModuleChain.accumulated`: what all modules of a chain depend on.
-/

import ExtensionCatalog.DependencyProvider
import ExtensionCatalog.Logged
import ExtensionCatalog.Settings.Foundation

namespace ExtensionCatalog

/-- A module on the way up, and what it depends on. -/
structure ModuleStep where
  module : Coordinate
  /-- The dependencies without excluded artifacts and without the modules met before; the parent
  module is among them. -/
  dependencies : DependencySet
  parent : Option Coordinate
deriving DecidableEq

/-- The dependencies that belong to the module's own level. -/
def ModuleStep.ownDependencies (step : ModuleStep) : DependencySet :=
  step.dependencies.eraseAll step.parent.toList

/-- The error of a walk that could not get the dependencies of a module. -/
def Error.asGraphFailure (module : Coordinate) : Error → Error
  | dependencyGraphBuildFailed coordinate reason => dependencyGraphBuildFailed coordinate reason
  | other => dependencyGraphBuildFailed module other.message

namespace ModuleChain

/-- What a walk asks: who answers for dependencies, what marks a module, and which artifacts are
left out everywhere. -/
structure Guide where
  provider : DependencyProvider
  foundation : FoundationSettings
  excluded : List Coordinate

/-- The dependencies of a module without the modules visited and the excluded artifacts. -/
def fetch (guide : Guide) (module : Coordinate) (visited : List Coordinate) :
    Except Error DependencySet :=
  match guide.provider.dependencies module with
  | .ok set => .ok ((set.eraseAll visited).eraseAll guide.excluded)
  | .error error => .error (error.asGraphFailure module)

/-- The modules among the coordinates of a set, in order. -/
def modulesOf (guide : Guide) (set : DependencySet) : List Coordinate :=
  set.coordinates.filter guide.foundation.isModule

/-- The single module in the dependencies of a module, if there is one. -/
def parentOf (guide : Guide) (module : Coordinate) (set : DependencySet) :
    Except Error (Option Coordinate) :=
  match modulesOf guide set with
  | [] => .ok none
  | [parent] => .ok (some parent)
  | candidates => .error (.ambiguousParentModule module candidates)

/-- The artifacts with known dependencies that have not been visited. -/
def unvisited (guide : Guide) (visited : List Coordinate) : List Coordinate :=
  guide.provider.listed.filter (· ∉ visited)

theorem mem_listed_of_fetch {guide : Guide} {module : Coordinate} {visited : List Coordinate}
    {set : DependencySet} (fetched : fetch guide module visited = .ok set) :
    module ∈ guide.provider.listed := by
  unfold fetch at fetched
  split at fetched
  · next answered => exact guide.provider.mem_listed answered
  · cases fetched

/-- Visiting an artifact with known dependencies leaves fewer to visit. -/
theorem length_unvisited_lt {guide : Guide} {module : Coordinate} {visited : List Coordinate}
    (listed : module ∈ guide.provider.listed) (fresh : module ∉ visited) :
    (unvisited guide (visited ++ [module])).length < (unvisited guide visited).length := by
  have narrowed : unvisited guide (visited ++ [module]) =
      (unvisited guide visited).filter (· ≠ module) := by
    simp only [unvisited, List.filter_filter]
    congr 1
    funext coordinate
    by_cases same : coordinate = module <;> simp [same]
  rw [narrowed]
  refine Nat.lt_of_le_of_ne (List.length_filter_le ..) fun equal => ?_
  have kept := List.length_filter_eq_length_iff.mp equal module
    (List.mem_filter.mpr ⟨listed, by simpa using fresh⟩)
  simp at kept

/-- A parent has not been visited. -/
theorem parent_not_visited {guide : Guide} {module parent : Coordinate} {visited : List Coordinate}
    {set : DependencySet} (fetched : fetch guide module visited = .ok set)
    (chosen : parentOf guide module set = .ok (some parent)) : parent ∉ visited := by
  have member : parent ∈ modulesOf guide set := by
    unfold parentOf at chosen
    split at chosen <;> simp_all
  have recorded := (DependencySet.mem_coordinates ..).mp (List.mem_filter.mp member).1
  unfold fetch at fetched
  split at fetched
  · cases fetched
    rw [DependencySet.find?_eraseAll] at recorded
    split at recorded
    · simp at recorded
    · rw [DependencySet.find?_eraseAll] at recorded
      intro seen
      simp [seen] at recorded
  · cases fetched

/-- The modules from `module` up, after those in `visited`. -/
def walkFrom (guide : Guide) (module : Coordinate) (visited : List Coordinate)
    (_fresh : module ∉ visited) : Logged (List ModuleStep) :=
  match fetched : fetch guide module (visited ++ [module]) with
  | .error error => .fail error
  | .ok set =>
    match chosen : parentOf guide module set with
    | .error error => .fail error
    | .ok none => return [⟨module, set, none⟩]
    | .ok (some parent) => do
      .note .info s!"Found module dependency of {module}: {parent}"
      let above ← walkFrom guide parent (visited ++ [module]) (parent_not_visited fetched chosen)
      return ⟨module, set, some parent⟩ :: above
termination_by (unvisited guide visited).length
decreasing_by exact length_unvisited_lt (mem_listed_of_fetch fetched) _fresh

/-- The modules from a module up. -/
def walk (guide : Guide) (module : Coordinate) : Logged (List ModuleStep) :=
  walkFrom guide module [] (by simp)

/-- What all modules of a chain depend on; the file recorded nearest to the first one counts. -/
def accumulated (steps : List ModuleStep) : DependencySet :=
  steps.foldl (fun set step => set.extend step.dependencies) ∅

end ModuleChain

end ExtensionCatalog
