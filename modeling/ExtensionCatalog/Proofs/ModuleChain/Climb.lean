/-
**What a walk up the modules yields.**

A walk visits a module, takes what was visited out of its dependencies and goes on with the one
module that is left. It is described by its steps:

* `fetch_eq_ok_iff`, `parentOf_eq_ok_iff`: what one step reads;
* `Climb`: a walk that came to the top, one case for each kind of step;
* `outcome_walkFrom_eq_ok_iff`: **a walk yields exactly its climbs**;
* `Climb.at_place`, `Climb.find?_dependencies`, `Climb.find?_ownDependencies_eq_some_iff`: a step of
  a climb, by its place;
* `Climb.nodup`, `Climb.length_le`: no module comes twice, so only listed ones come, each once;
* `walkWithin_eq_some`: **a walk ends**; the modules listed and one more bound its rounds.
-/

import ExtensionCatalog.ModuleChain
import ExtensionCatalog.Proofs.Outcome

namespace ExtensionCatalog.ModuleChain

variable {guide : Guide} {visited : List Coordinate} {module : Coordinate}

/-! ### One step -/

section Step

variable {set : DependencySet}

/-- What a module depends on, without the modules visited and the excluded artifacts. -/
theorem fetch_eq_ok_iff :
    fetch guide module visited = .ok set ↔
      ∃ answer, guide.provider.dependencies module = .ok answer ∧
        set = (answer.eraseAll visited).eraseAll guide.excluded := by
  unfold fetch
  cases guide.provider.dependencies module with
  | error error => exact iff_of_false (fun equal => by cases equal) (by simp)
  | ok answer => simp [eq_comm]

theorem find?_eraseAll_eraseAll (answer : DependencySet) (visited excluded : List Coordinate)
    (coordinate : Coordinate) :
    ((answer.eraseAll visited).eraseAll excluded).find? coordinate =
      if coordinate ∈ visited ∨ coordinate ∈ excluded then none else answer.find? coordinate := by
  rw [DependencySet.find?_eraseAll, DependencySet.find?_eraseAll]
  by_cases excludedHere : coordinate ∈ excluded
  · rw [if_pos excludedHere, if_pos (Or.inr excludedHere)]
  · rw [if_neg excludedHere]
    by_cases visitedHere : coordinate ∈ visited
    · rw [if_pos visitedHere, if_pos (Or.inl visitedHere)]
    · rw [if_neg visitedHere, if_neg (by rintro (here | here) <;> contradiction)]

/-- A parent is chosen exactly if no second module is left. -/
theorem parentOf_eq_ok_iff {parent : Option Coordinate} :
    parentOf guide module set = .ok parent ↔ modulesOf guide set = parent.toList := by
  unfold parentOf
  rcases modulesOf guide set with _ | ⟨first, _ | ⟨second, rest⟩⟩
  · cases parent <;> simp
  · cases parent <;> simp
  · refine iff_of_false (fun equal => by cases equal) fun equal => ?_
    cases parent <;> cases equal

theorem mem_modulesOf_iff {coordinate : Coordinate} :
    coordinate ∈ modulesOf guide set ↔
      guide.foundation.isModule coordinate = true ∧ (set.find? coordinate).isSome := by
  rw [modulesOf, List.mem_filter, DependencySet.mem_coordinates]
  exact and_comm

/-- The parent is the one module that is left. -/
theorem eq_parent_iff {parent : Option Coordinate} {coordinate : Coordinate}
    (chosen : parentOf guide module set = .ok parent) :
    parent = some coordinate ↔
      guide.foundation.isModule coordinate = true ∧ (set.find? coordinate).isSome := by
  rw [← mem_modulesOf_iff, parentOf_eq_ok_iff.mp chosen, Option.mem_toList]

end Step

/-! ### The walk, case by case -/

section Walk

variable {set : DependencySet} {fresh : module ∉ visited}

theorem walkFrom_of_fetch_error {error : Error}
    (fetched : fetch guide module (visited ++ [module]) = .error error) :
    walkFrom guide module visited fresh = .fail error := by
  unfold walkFrom
  split
  · next failed =>
    rw [fetched] at failed
    cases failed
    rfl
  · next answered =>
    rw [fetched] at answered
    cases answered

theorem walkFrom_of_fetch_ok
    (fetched : fetch guide module (visited ++ [module]) = .ok set) :
    walkFrom guide module visited fresh =
      match chosen : parentOf guide module set with
      | .error error => .fail error
      | .ok none => return [⟨module, set, none⟩]
      | .ok (some parent) => do
        .note .info s!"Found module dependency of {module}: {parent}"
        let above ← walkFrom guide parent (visited ++ [module]) (parent_not_visited fetched chosen)
        return ⟨module, set, some parent⟩ :: above := by
  rw [walkFrom]
  split
  · next failed =>
    rw [fetched] at failed
    cases failed
  · next answered =>
    rw [fetched] at answered
    cases answered
    rfl

theorem walkFrom_of_ambiguous {error : Error}
    (fetched : fetch guide module (visited ++ [module]) = .ok set)
    (chosen : parentOf guide module set = .error error) :
    walkFrom guide module visited fresh = .fail error := by
  rw [walkFrom_of_fetch_ok fetched]
  split
  · next equal =>
    rw [chosen] at equal
    cases equal
    rfl
  · next equal =>
    rw [chosen] at equal
    cases equal
  · next equal =>
    rw [chosen] at equal
    cases equal

theorem walkFrom_top (fetched : fetch guide module (visited ++ [module]) = .ok set)
    (chosen : parentOf guide module set = .ok none) :
    walkFrom guide module visited fresh = pure [⟨module, set, none⟩] := by
  rw [walkFrom_of_fetch_ok fetched]
  split
  · next equal =>
    rw [chosen] at equal
    cases equal
  · rfl
  · next equal =>
    rw [chosen] at equal
    cases equal

theorem walkFrom_up {parent : Coordinate}
    (fetched : fetch guide module (visited ++ [module]) = .ok set)
    (chosen : parentOf guide module set = .ok (some parent)) :
    walkFrom guide module visited fresh = do
      .note .info s!"Found module dependency of {module}: {parent}"
      let above ← walkFrom guide parent (visited ++ [module]) (parent_not_visited fetched chosen)
      return ⟨module, set, some parent⟩ :: above := by
  rw [walkFrom_of_fetch_ok fetched]
  split
  · next equal =>
    rw [chosen] at equal
    cases equal
  · next equal =>
    rw [chosen] at equal
    cases equal
  · next equal =>
    rw [chosen] at equal
    cases equal
    rfl

end Walk

/-! ### Climbs -/

/-- A walk from a module, after the modules visited, that came to a module without parent. -/
inductive Climb (guide : Guide) : List Coordinate → Coordinate → List ModuleStep → Prop
  | top {visited : List Coordinate} {module : Coordinate} {set : DependencySet}
      (fetched : fetch guide module (visited ++ [module]) = .ok set)
      (chosen : parentOf guide module set = .ok none) :
      Climb guide visited module [⟨module, set, none⟩]
  | up {visited : List Coordinate} {module parent : Coordinate} {set : DependencySet}
      {above : List ModuleStep} (fetched : fetch guide module (visited ++ [module]) = .ok set)
      (chosen : parentOf guide module set = .ok (some parent))
      (further : Climb guide (visited ++ [module]) parent above) :
      Climb guide visited module (⟨module, set, some parent⟩ :: above)

theorem Climb.of_walkFrom {steps : List ModuleStep} {fresh : module ∉ visited}
    (walked : (walkFrom guide module visited fresh).outcome = .ok steps) :
    Climb guide visited module steps := by
  fun_induction walkFrom guide module visited fresh generalizing steps with
  | case1 => cases walked
  | case2 => cases walked
  | case3 module visited fresh set fetched chosen =>
    cases walked
    exact .top fetched chosen
  | case4 module visited fresh set fetched parent chosen hypothesis =>
    simp only [Logged.outcome_bind, Outcome.bind_eq_ok_iff] at walked
    obtain ⟨-, -, above, further, equal⟩ := walked
    cases equal
    exact .up fetched chosen (hypothesis further)

theorem Climb.outcome_walkFrom {steps : List ModuleStep} (climb : Climb guide visited module steps)
    (fresh : module ∉ visited) : (walkFrom guide module visited fresh).outcome = .ok steps := by
  induction climb with
  | top fetched chosen =>
    rw [walkFrom_top fetched chosen]
    rfl
  | up fetched chosen further hypothesis =>
    rw [walkFrom_up fetched chosen]
    simp only [Logged.outcome_bind, Outcome.bind_eq_ok_iff]
    exact ⟨(), rfl, _, hypothesis (parent_not_visited fetched chosen), rfl⟩

/-- **A walk yields exactly its climbs.** -/
theorem outcome_walkFrom_eq_ok_iff {steps : List ModuleStep} (fresh : module ∉ visited) :
    (walkFrom guide module visited fresh).outcome = .ok steps ↔
      Climb guide visited module steps :=
  ⟨.of_walkFrom, fun climb => climb.outcome_walkFrom fresh⟩

/-- **A step of a climb, by its place.** A module is asked for its dependencies without the modules
up to itself, and its parent is the next one. -/
theorem Climb.at_place {steps : List ModuleStep} (climb : Climb guide visited module steps)
    {place : Nat} {step : ModuleStep} (here : steps[place]? = some step) :
    fetch guide step.module (visited ++ (steps.map (·.module)).take (place + 1)) =
        .ok step.dependencies ∧
      parentOf guide step.module step.dependencies = .ok step.parent ∧
      step.parent = (steps.map (·.module))[place + 1]? := by
  induction climb generalizing place with
  | top fetched chosen =>
    cases place with
    | zero =>
      cases here
      exact ⟨fetched, chosen, rfl⟩
    | succ place => cases here
  | @up visited module parent set above fetched chosen further hypothesis =>
    cases place with
    | zero =>
      cases here
      refine ⟨fetched, chosen, ?_⟩
      cases further <;> rfl
    | succ place =>
      have later := hypothesis here
      rw [List.append_assoc] at later
      exact later

/-- **What a module of a climb depends on.** Of what it is said to depend on, the modules up to
itself are left out, and for its own level the next one too, and the excluded artifacts. -/
theorem Climb.find?_dependencies {steps : List ModuleStep} (climb : Climb guide [] module steps)
    {place : Nat} {step : ModuleStep} (here : steps[place]? = some step) :
    ∃ answer, guide.provider.dependencies step.module = .ok answer ∧
      (∀ coordinate, step.dependencies.find? coordinate =
        if coordinate ∈ (steps.map (·.module)).take (place + 1) ∨ coordinate ∈ guide.excluded
        then none else answer.find? coordinate) ∧
      ∀ coordinate, step.ownDependencies.find? coordinate =
        if coordinate ∈ (steps.map (·.module)).take (place + 2) ∨ coordinate ∈ guide.excluded
        then none else answer.find? coordinate := by
  obtain ⟨fetched, -, next⟩ := climb.at_place here
  obtain ⟨answer, answered, rest⟩ := fetch_eq_ok_iff.mp fetched
  rw [List.nil_append] at rest
  have whole : ∀ coordinate, step.dependencies.find? coordinate =
      if coordinate ∈ (steps.map (·.module)).take (place + 1) ∨ coordinate ∈ guide.excluded
      then none else answer.find? coordinate := by
    intro coordinate
    rw [rest, find?_eraseAll_eraseAll]
  refine ⟨answer, answered, whole, fun coordinate => ?_⟩
  have further : coordinate ∈ (steps.map (·.module)).take (place + 2) ↔
      coordinate ∈ (steps.map (·.module)).take (place + 1) ∨
        coordinate ∈ (steps.map (·.module))[place + 1]?.toList := by
    rw [List.take_add_one, List.mem_append]
  rw [ModuleStep.ownDependencies, DependencySet.find?_eraseAll, whole, next]
  by_cases parent : coordinate ∈ (steps.map (·.module))[place + 1]?.toList
  · rw [if_pos parent, if_pos (Or.inl (further.mpr (.inr parent)))]
  · rw [if_neg parent]
    exact if_congr (or_congr_left ⟨fun early => further.mpr (.inl early), fun member =>
      (further.mp member).resolve_right parent⟩) rfl rfl

/-- What a module has for its own level: its dependencies, less the modules up to the next one and
the excluded artifacts. -/
theorem Climb.find?_ownDependencies_eq_some_iff {steps : List ModuleStep}
    (climb : Climb guide [] module steps) {place : Nat} {step : ModuleStep}
    (here : steps[place]? = some step) {coordinate : Coordinate} {recorded : Option FilePath} :
    step.ownDependencies.find? coordinate = some recorded ↔
      ∃ set, guide.provider.dependencies step.module = .ok set ∧
        set.find? coordinate = some recorded ∧
        coordinate ∉ (steps.map (·.module)).take (place + 2) ∧ coordinate ∉ guide.excluded := by
  obtain ⟨set, answered, -, own⟩ := climb.find?_dependencies here
  rw [own]
  by_cases removed :
      coordinate ∈ (steps.map (·.module)).take (place + 2) ∨ coordinate ∈ guide.excluded
  · rw [if_pos removed]
    refine iff_of_false (fun equal => by cases equal) ?_
    rintro ⟨-, -, -, first, second⟩
    exact removed.elim first second
  · rw [if_neg removed]
    rw [not_or] at removed
    constructor
    · exact fun found => ⟨set, answered, found, removed⟩
    · rintro ⟨other, also, found, -⟩
      rw [answered] at also
      cases also
      exact found

/-- No module belongs to the level of another one. -/
theorem not_isModule_of_ownDependencies {step : ModuleStep}
    (chosen : parentOf guide step.module step.dependencies = .ok step.parent)
    {coordinate : Coordinate} (own : (step.ownDependencies.find? coordinate).isSome) :
    guide.foundation.isModule coordinate = false := by
  rw [ModuleStep.ownDependencies, DependencySet.find?_eraseAll] at own
  by_cases parent : coordinate ∈ step.parent.toList
  · rw [if_pos parent] at own
    cases own
  · rw [if_neg parent] at own
    by_contra typed
    rw [Bool.not_eq_false] at typed
    have same := (eq_parent_iff chosen).mpr ⟨typed, own⟩
    exact parent (Option.mem_toList.mpr same)

theorem Climb.head? {steps : List ModuleStep} (climb : Climb guide visited module steps) :
    (steps.map (·.module)).head? = some module := by
  cases climb <;> rfl

/-- No module comes twice, and none that was visited before. -/
theorem Climb.nodup {steps : List ModuleStep} (climb : Climb guide visited module steps)
    (fresh : module ∉ visited) :
    (steps.map (·.module)).Nodup ∧ ∀ other ∈ steps.map (·.module), other ∉ visited := by
  induction climb with
  | top fetched chosen => simpa using fresh
  | up fetched chosen further hypothesis =>
    obtain ⟨distinct, apart⟩ := hypothesis (parent_not_visited fetched chosen)
    rw [List.map_cons, List.nodup_cons, List.forall_mem_cons]
    refine ⟨⟨fun again => ?_, distinct⟩, fresh, fun other member visitedBefore => ?_⟩
    · exact apart _ again (List.mem_append_right _ (List.mem_singleton_self _))
    · exact apart _ member (List.mem_append_left _ visitedBefore)

/-- There are at most as many modules as artifacts that are listed and were not visited before. -/
theorem Climb.length_le {steps : List ModuleStep} (climb : Climb guide visited module steps)
    (fresh : module ∉ visited) : steps.length ≤ (unvisited guide visited).length := by
  induction climb with
  | top fetched chosen =>
    have fewer := length_unvisited_lt (mem_listed_of_fetch fetched) fresh
    rw [List.length_singleton]
    omega
  | up fetched chosen further hypothesis =>
    have fewer := length_unvisited_lt (mem_listed_of_fetch fetched) fresh
    have others := hypothesis (parent_not_visited fetched chosen)
    rw [List.length_cons]
    omega

/-! ### The end of a walk -/

/-- The walk of `walkFrom` without the reason why it ends, cut off after a number of modules; no
result if it has not ended by then. -/
def walkWithin (guide : Guide) :
    Nat → Coordinate → List Coordinate → Option (Logged (List ModuleStep))
  | 0, _, _ => none
  | rounds + 1, module, visited =>
    match fetch guide module (visited ++ [module]) with
    | .error error => some (.fail error)
    | .ok set =>
      match parentOf guide module set with
      | .error error => some (.fail error)
      | .ok none => some (pure [⟨module, set, none⟩])
      | .ok (some parent) =>
        (walkWithin guide rounds parent (visited ++ [module])).map fun further => do
          .note .info s!"Found module dependency of {module}: {parent}"
          let above ← further
          return ⟨module, set, some parent⟩ :: above

/-- **A walk ends.** Whatever the dependencies are, a walk has ended when it has met every listed
artifact that was not visited before, and one more. -/
theorem walkWithin_eq_some {rounds : Nat} (fresh : module ∉ visited)
    (enough : (unvisited guide visited).length < rounds) :
    walkWithin guide rounds module visited = some (walkFrom guide module visited fresh) := by
  induction rounds generalizing visited module with
  | zero => omega
  | succ rounds hypothesis =>
    rw [walkWithin]
    cases fetched : fetch guide module (visited ++ [module]) with
    | error error => rw [walkFrom_of_fetch_error fetched]
    | ok set =>
      dsimp only
      cases chosen : parentOf guide module set with
      | error error => rw [walkFrom_of_ambiguous fetched chosen]
      | ok parent =>
        cases parent with
        | none => rw [walkFrom_top fetched chosen]
        | some parent =>
          have fewer := length_unvisited_lt (mem_listed_of_fetch fetched) fresh
          rw [walkFrom_up fetched chosen]
          dsimp only
          rw [hypothesis (parent_not_visited fetched chosen) (by omega)]
          rfl

end ExtensionCatalog.ModuleChain
