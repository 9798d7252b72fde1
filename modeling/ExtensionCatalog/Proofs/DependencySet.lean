/-
**What dependency sets have after sets are put together.**

* `find?_insertAll`: inserting many keeps what was there, and of several the first;
* `find?_extend`: putting two sets together keeps the first one's files;
* `find?_accumulated_eq_some_iff`: **what a chain of modules depends on** has the file recorded
  nearest to its first module.
-/

import ExtensionCatalog.ModuleChain

namespace ExtensionCatalog

namespace DependencySet

/-- Inserting many coordinates keeps the files recorded before, and of several the first one. -/
theorem find?_insertAll (set : DependencySet) (records : List (Coordinate × Option FilePath))
    (coordinate : Coordinate) :
    (set.insertAll records).find? coordinate =
      (set.find? coordinate).or (SortedMap.lookup coordinate records) := by
  induction records generalizing set with
  | nil => exact (Option.or_none ..).symm
  | cons record rest hypothesis =>
    obtain ⟨first, file⟩ := record
    rw [insertAll, List.foldl_cons, ← insertAll, hypothesis, find?_insert, SortedMap.lookup]
    by_cases here : coordinate = first
    · subst here
      cases set.find? coordinate <;> simp
    · simp [here]

/-- Putting two sets together keeps the files of the first one. -/
theorem find?_extend (set other : DependencySet) (coordinate : Coordinate) :
    (set.extend other).find? coordinate =
      (set.find? coordinate).or (other.find? coordinate) :=
  find?_insertAll set other.records.toList coordinate

end DependencySet

namespace ModuleChain

theorem find?_foldl_extend (steps : List ModuleStep) (set : DependencySet)
    (coordinate : Coordinate) :
    (steps.foldl (fun set step => set.extend step.dependencies) set).find? coordinate =
      (set.find? coordinate).or
        (steps.findSome? fun step => step.dependencies.find? coordinate) := by
  induction steps generalizing set with
  | nil => exact (Option.or_none ..).symm
  | cons step rest hypothesis =>
    rw [List.foldl_cons, hypothesis, DependencySet.find?_extend, Option.or_assoc,
      List.findSome?_cons]
    cases step.dependencies.find? coordinate with
    | none => rw [Option.none_or]
    | some file => rw [Option.some_or]

/-- **What a chain of modules depends on.** Of several records of a coordinate the one counts that
is nearest to the first module, also if it has no file. -/
theorem find?_accumulated_eq_some_iff {steps : List ModuleStep} {coordinate : Coordinate}
    {recorded : Option FilePath} :
    (accumulated steps).find? coordinate = some recorded ↔
      ∃ before step after, steps = before ++ step :: after ∧
        step.dependencies.find? coordinate = some recorded ∧
        ∀ nearer ∈ before, nearer.dependencies.find? coordinate = none := by
  rw [accumulated, find?_foldl_extend, DependencySet.find?_empty, Option.none_or,
    List.findSome?_eq_some_iff]

end ModuleChain

end ExtensionCatalog
