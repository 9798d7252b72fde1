/-
**Where a walk up the modules is refused.**

A walk that does not come to its end comes to a module that it cannot pass: nobody can tell what the
module depends on, or it depends on several modules.

* `Reaches`: the modules that a walk comes to, one after the other;
* `Refused`: why a walk cannot pass a module, one case for each reason;
* `outcome_walkFrom_eq_error_iff`: **a walk fails exactly where it is refused**;
* `Climb.congr`: a climb asks for nothing but the dependencies of its own modules.
-/

import ExtensionCatalog.Proofs.ModuleChain.Climb

namespace ExtensionCatalog.ModuleChain

variable {guide : Guide} {visited : List Coordinate} {module : Coordinate}

/-! ### One step -/

section Step

variable {set : DependencySet} {error : Error}

theorem fetch_eq_error_iff :
    fetch guide module visited = .error error ↔
      ∃ cause, guide.provider.dependencies module = .error cause ∧
        error = cause.asGraphFailure module := by
  unfold fetch
  cases guide.provider.dependencies module with
  | error cause => simp [eq_comm]
  | ok answer => exact iff_of_false (fun equal => by cases equal) (by simp)

/-- No parent is chosen exactly if a second module is left. -/
theorem parentOf_eq_error_iff :
    parentOf guide module set = .error error ↔
      1 < (modulesOf guide set).length ∧
        error = .ambiguousParentModule module (modulesOf guide set) := by
  unfold parentOf
  rcases modulesOf guide set with _ | ⟨first, _ | ⟨second, rest⟩⟩
  · simp
  · simp
  · simp [eq_comm]

end Step

/-! ### Refusals -/

/-- A walk from a module, after the modules visited, comes to the module `last` after the modules
`before`: each is the only module that the one before it depends on, the modules up to that one and
the excluded artifacts left out. -/
inductive Reaches (guide : Guide) :
    List Coordinate → Coordinate → List Coordinate → Coordinate → Prop
  | here {visited : List Coordinate} {module : Coordinate} :
      Reaches guide visited module visited module
  | up {visited before : List Coordinate} {module parent last : Coordinate} {set : DependencySet}
      (fetched : fetch guide module (visited ++ [module]) = .ok set)
      (only : modulesOf guide set = [parent])
      (further : Reaches guide (visited ++ [module]) parent before last) :
      Reaches guide visited module before last

/-- Why a walk cannot pass a module to which it has come after the modules `before`. -/
inductive Refused (guide : Guide) (before : List Coordinate) (module : Coordinate) : Error → Prop
  /-- A failure of the dependency graph stands as it is. -/
  | unknown {coordinate : Coordinate} {reason : String}
      (failed : guide.provider.dependencies module =
        .error (.dependencyGraphBuildFailed coordinate reason)) :
      Refused guide before module (.dependencyGraphBuildFailed coordinate reason)
  /-- Any other error becomes a failure of the dependency graph for the module. -/
  | foreign {error : Error} (failed : guide.provider.dependencies module = .error error)
      (other : ∀ coordinate reason, error ≠ .dependencyGraphBuildFailed coordinate reason) :
      Refused guide before module (.dependencyGraphBuildFailed module error.message)
  /-- The module depends on several others. -/
  | ambiguous {set : DependencySet} (fetched : fetch guide module (before ++ [module]) = .ok set)
      (several : 1 < (modulesOf guide set).length) :
      Refused guide before module (.ambiguousParentModule module (modulesOf guide set))

theorem Refused.of_fetch_eq_error {before : List Coordinate} {error : Error}
    (fetched : fetch guide module (before ++ [module]) = .error error) :
    Refused guide before module error := by
  obtain ⟨cause, failed, rfl⟩ := fetch_eq_error_iff.mp fetched
  cases cause with
  | dependencyGraphBuildFailed coordinate reason => exact .unknown failed
  | _ => exact .foreign failed (fun coordinate reason equal => by cases equal)

/-- A refusal is a failure of the step that a walk takes at the module. -/
theorem Refused.outcome_walkFrom {error : Error} (refused : Refused guide visited module error)
    (fresh : module ∉ visited) :
    (walkFrom guide module visited fresh).outcome = .error error := by
  cases refused with
  | unknown failed =>
    rw [walkFrom_of_fetch_error (fetch_eq_error_iff.mpr ⟨_, failed, rfl⟩)]
    rfl
  | @foreign cause failed other =>
    have wrapped : cause.asGraphFailure module =
        .dependencyGraphBuildFailed module cause.message := by
      cases cause with
      | dependencyGraphBuildFailed coordinate reason => exact absurd rfl (other coordinate reason)
      | _ => rfl
    rw [walkFrom_of_fetch_error (fetch_eq_error_iff.mpr ⟨_, failed, rfl⟩), wrapped]
    rfl
  | ambiguous fetched several =>
    rw [walkFrom_of_ambiguous fetched (parentOf_eq_error_iff.mpr ⟨several, rfl⟩)]
    rfl

theorem exists_refused_of_walkFrom {error : Error} {fresh : module ∉ visited}
    (walked : (walkFrom guide module visited fresh).outcome = .error error) :
    ∃ before last, Reaches guide visited module before last ∧
      Refused guide before last error := by
  fun_induction walkFrom guide module visited fresh with
  | case1 module visited fresh cause fetched =>
    cases walked
    exact ⟨visited, module, .here, .of_fetch_eq_error fetched⟩
  | case2 module visited fresh set fetched cause chosen =>
    cases walked
    obtain ⟨several, rfl⟩ := parentOf_eq_error_iff.mp chosen
    exact ⟨visited, module, .here, .ambiguous fetched several⟩
  | case3 => cases walked
  | case4 module visited fresh set fetched parent chosen hypothesis =>
    simp only [Logged.outcome_bind, Outcome.bind_eq_error_iff] at walked
    obtain noted | ⟨-, -, failed | ⟨above, -, equal⟩⟩ := walked
    · cases noted
    · obtain ⟨before, last, further, refused⟩ := hypothesis failed
      exact ⟨before, last, .up fetched (parentOf_eq_ok_iff.mp chosen) further, refused⟩
    · cases equal

/-- **A walk fails exactly where it is refused.** -/
theorem outcome_walkFrom_eq_error_iff {error : Error} (fresh : module ∉ visited) :
    (walkFrom guide module visited fresh).outcome = .error error ↔
      ∃ before last, Reaches guide visited module before last ∧
        Refused guide before last error := by
  refine ⟨exists_refused_of_walkFrom, ?_⟩
  rintro ⟨before, last, reaches, refused⟩
  induction reaches with
  | here => exact refused.outcome_walkFrom fresh
  | @up visited before module parent last set fetched only further hypothesis =>
    have chosen : parentOf guide module set = .ok (some parent) := parentOf_eq_ok_iff.mpr only
    rw [walkFrom_up fetched chosen]
    simp only [Logged.outcome_bind, Outcome.bind_eq_error_iff]
    exact .inr ⟨(), rfl, .inl (hypothesis (parent_not_visited fetched chosen) refused)⟩

/-! ### What a climb asks for -/

/-- There is one climb from a module at most. -/
theorem Climb.unique {first second : List ModuleStep} (climb : Climb guide visited module first)
    (other : Climb guide visited module second) (fresh : module ∉ visited) : first = second := by
  have one := climb.outcome_walkFrom fresh
  rw [other.outcome_walkFrom fresh] at one
  cases one
  rfl

/-- **A climb asks for nothing but the dependencies of its own modules.** -/
theorem Climb.congr {steps : List ModuleStep} {provider : DependencyProvider}
    (climb : Climb guide visited module steps)
    (same : ∀ step ∈ steps,
      provider.dependencies step.module = guide.provider.dependencies step.module) :
    Climb { guide with provider } visited module steps := by
  have refetch : ∀ {visited : List Coordinate} {module : Coordinate} {set : DependencySet},
      provider.dependencies module = guide.provider.dependencies module →
      fetch guide module visited = .ok set →
      fetch { guide with provider } module visited = .ok set := by
    intro visited module set equal fetched
    obtain ⟨answer, answered, rest⟩ := fetch_eq_ok_iff.mp fetched
    exact fetch_eq_ok_iff.mpr ⟨answer, equal.trans answered, rest⟩
  induction climb with
  | top fetched chosen =>
    exact .top (refetch (same _ List.mem_cons_self) fetched) chosen
  | up fetched chosen further hypothesis =>
    refine .up (refetch (same _ List.mem_cons_self) fetched) chosen (hypothesis ?_)
    exact fun step member => same step (List.mem_cons_of_mem _ member)

end ExtensionCatalog.ModuleChain
