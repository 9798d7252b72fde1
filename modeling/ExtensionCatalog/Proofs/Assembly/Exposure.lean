/-
**What the levels of a chain expose.**

A level takes from the dependencies of its module what no level above it exposes, so every artifact
stands in one level, and what a context exposes are the dependencies of its module and of those
above it.

* `Raised.at_place`: the chain above a level is raised from the modules above its module;
* `Raised.exposes_iff`, `Raised.disjoint`: what a raised chain exposes, and that once;
* `Raised.mem_levels`: where the artifacts of a level come from;
* `not_isModule_of_levels`, `file_of_levels`: which artifacts these are, and where their files;
* `build_exposure`: **what the levels of a build expose**.
-/

import ExtensionCatalog.Proofs.Assembly.Chain

namespace ExtensionCatalog.Assembly

open ModuleChain

variable {assembly : Assembly}

/-! ### Raised chains -/

section Raised

variable {foundation context : LoadingContext} {steps : List ModuleStep}

/-- The chain above a level is raised from the modules above its module. -/
theorem Raised.at_place {level : Level} (raised : Raised assembly (.root level) steps context)
    {place : Nat} {ancestor : LoadingContext} (here : context.ancestry[place]? = some ancestor) :
    Raised assembly (.root level) (steps.drop place) ancestor := by
  induction raised generalizing place with
  | foundation =>
    cases place with
    | zero =>
      cases here
      exact .foundation
    | succ place => cases here
  | level outer located hypothesis =>
    cases place with
    | zero =>
      cases here
      exact .level outer located
    | succ place => exact hypothesis here

theorem Raised.foundation_eq (raised : Raised assembly foundation steps context) :
    context.foundation = foundation.foundation := by
  induction raised with
  | foundation => rfl
  | level outer located hypothesis => exact hypothesis

/-- **What a chain exposes**: what its foundation does, and what its modules depend on. -/
theorem Raised.exposes_iff (raised : Raised assembly foundation steps context)
    {coordinate : Coordinate} :
    context.exposes coordinate = true ↔ foundation.exposes coordinate = true ∨
      ∃ step ∈ steps, (step.ownDependencies.find? coordinate).isSome := by
  induction raised with
  | foundation => simp
  | @level step steps parent artifacts outer located hypothesis =>
    rw [LoadingContext.extend, LoadingContext.exposes_child, Bool.or_eq_true,
      List.exists_mem_cons_iff, or_left_comm, ← hypothesis]
    have added : artifacts.contains coordinate = true ↔ _ := contains_added located
    refine (or_congr_left added).trans ?_
    -- What the levels above expose is left out here, but it is exposed all the same.
    by_cases above : parent.exposes coordinate = true
    · exact iff_of_true (.inr above) (.inr above)
    · exact or_congr_left ⟨And.left, fun own => ⟨own, Bool.eq_false_iff.mpr above⟩⟩

/-- **Every artifact stands in one level.** -/
theorem Raised.disjoint {level : Level} (raised : Raised assembly (.root level) steps context) :
    context.levels.Pairwise fun inner outer => ∀ coordinate,
      inner.artifacts.contains coordinate = true → outer.artifacts.contains coordinate = false := by
  induction raised with
  | foundation => exact List.pairwise_singleton _ _
  | @level step steps parent artifacts outer located hypothesis =>
    rw [LoadingContext.extend, LoadingContext.levels_child, List.pairwise_cons]
    refine ⟨fun further member coordinate here => ?_, hypothesis⟩
    have hidden := ((contains_added located).mp here).2
    rw [LoadingContext.exposes, List.any_eq_false] at hidden
    exact Bool.eq_false_iff.mpr (hidden further member)

/-- The artifacts of a level belong to the foundation, or they are dependencies of its module and
located by its records. -/
theorem Raised.mem_levels (raised : Raised assembly foundation steps context) :
    ∀ level ∈ context.levels, level ∈ foundation.levels ∨
      ∃ step ∈ steps, level.module = some step.module ∧
        ∀ coordinate path, level.artifacts.find? coordinate = some path →
          ∃ recorded, step.ownDependencies.find? coordinate = some recorded ∧
            assembly.locate coordinate recorded = .ok path := by
  induction raised with
  | foundation => exact fun level member => .inl member
  | @level step steps parent artifacts outer located hypothesis =>
    intro level member
    rcases List.mem_cons.mp member with rfl | further
    · refine .inr ⟨step, List.mem_cons_self, rfl, fun coordinate path found => ?_⟩
      obtain ⟨recorded, own, -, place⟩ := (find?_added located).mp found
      exact ⟨recorded, own, place⟩
    · refine (hypothesis level further).imp_right ?_
      rintro ⟨origin, later, facts⟩
      exact ⟨origin, List.mem_cons_of_mem _ later, facts⟩

end Raised

/-! ### Builds -/

section Climbs

variable {guide : Guide} {root : Coordinate} {steps : List ModuleStep} {place : Nat}
  {coordinate : Coordinate}

/-- What the modules from a place of a climb on have for their own levels. -/
theorem exists_ownDependencies_iff (climb : Climb guide [] root steps) :
    (∃ step ∈ steps.drop place, (step.ownDependencies.find? coordinate).isSome) ↔
      ∃ higher module set, place ≤ higher ∧ (steps.map (·.module))[higher]? = some module ∧
        guide.provider.dependencies module = .ok set ∧ set.contains coordinate = true ∧
        coordinate ∉ (steps.map (·.module)).take (higher + 2) ∧ coordinate ∉ guide.excluded := by
  constructor
  · rintro ⟨step, member, own⟩
    obtain ⟨offset, there⟩ := List.mem_iff_getElem?.mp member
    rw [List.getElem?_drop] at there
    obtain ⟨recorded, own⟩ := Option.isSome_iff_exists.mp own
    obtain ⟨set, answered, found, left⟩ :=
      (climb.find?_ownDependencies_eq_some_iff there).mp own
    refine ⟨place + offset, step.module, set, Nat.le_add_right .., ?_, answered,
      Option.isSome_of_eq_some found, left⟩
    rw [List.getElem?_map, there]
    rfl
  · rintro ⟨higher, module, set, above, here, answered, known, left⟩
    rw [List.getElem?_map, Option.map_eq_some_iff] at here
    obtain ⟨step, there, rfl⟩ := here
    obtain ⟨recorded, found⟩ := Option.isSome_iff_exists.mp known
    refine ⟨step, ?_, Option.isSome_of_eq_some
      ((climb.find?_ownDependencies_eq_some_iff there).mpr ⟨set, answered, found, left⟩)⟩
    refine List.mem_iff_getElem?.mpr ⟨higher - place, ?_⟩
    rw [List.getElem?_drop, Nat.add_sub_cancel' above]
    exact there

end Climbs

section Built

variable {root : Coordinate} {steps : List ModuleStep} {foundation context : LoadingContext}

/-- Unless modules are marked by the kind of plain artifacts, no module is among the artifacts of a
level. -/
theorem not_isModule_of_levels (climb : Climb assembly.toGuide [] root steps)
    (founded : (assembly.buildFoundation (accumulated steps)).outcome = .ok foundation)
    (raised : Raised assembly foundation steps context)
    (other : Text.asciiLowercase assembly.foundation.moduleType ≠ Text.asciiLowercase "jar") :
    ∀ level ∈ context.levels, ∀ coordinate, level.artifacts.contains coordinate = true →
      assembly.foundation.isModule coordinate = false := by
  intro level member coordinate here
  obtain ⟨provided, artifacts, chosen, rfl, -, files⟩ := buildFoundation_spec founded
  obtain ⟨path, found⟩ := Option.isSome_iff_exists.mp here
  rcases raised.mem_levels level member with shared | ⟨step, origin, -, facts⟩
  · rw [List.mem_singleton.mp shared] at found
    have kind := kind_of_foundationArtifacts chosen coordinate ((files _ _).mp found).1
    rw [FoundationSettings.isModule, Coordinate.isKind, kind, beq_eq_false_iff_ne]
    exact other.symm
  · obtain ⟨recorded, own, -⟩ := facts coordinate path found
    obtain ⟨place, there⟩ := List.mem_iff_getElem?.mp origin
    exact not_isModule_of_ownDependencies (climb.at_place there).2.1
      (Option.isSome_of_eq_some own)

/-- Every file exists. At the level of a module it is the recorded one if that exists, and the
resolved one otherwise. -/
theorem file_of_levels (climb : Climb assembly.toGuide [] root steps)
    (founded : (assembly.buildFoundation (accumulated steps)).outcome = .ok foundation)
    (raised : Raised assembly foundation steps context) :
    ∀ level ∈ context.levels, ∀ coordinate path,
      level.artifacts.find? coordinate = some path → assembly.tree.exists? path = true ∧
        ∀ module, level.module = some module →
          ∃ set recorded, assembly.provider.dependencies module = .ok set ∧
            set.find? coordinate = some recorded ∧
            (recorded = some path ∨
              (∀ file, recorded = some file → assembly.tree.exists? file = false) ∧
                assembly.resolver coordinate = some path) := by
  intro level member coordinate path found
  obtain ⟨provided, artifacts, -, rfl, -, files⟩ := buildFoundation_spec founded
  rcases raised.mem_levels level member with shared | ⟨step, origin, tag, facts⟩
  · rw [List.mem_singleton.mp shared] at found ⊢
    refine ⟨(locate_eq_ok_iff.mp ((files _ _).mp found).2).1, fun module tag => ?_⟩
    cases tag
  · obtain ⟨recorded, own, located⟩ := facts coordinate path found
    obtain ⟨present, source⟩ := locate_eq_ok_iff.mp located
    obtain ⟨place, there⟩ := List.mem_iff_getElem?.mp origin
    obtain ⟨set, answered, listed, -⟩ := (climb.find?_ownDependencies_eq_some_iff there).mp own
    refine ⟨present, fun module same => ?_⟩
    rw [tag] at same
    cases same
    exact ⟨set, recorded, answered, listed, source⟩

end Built

/-- **What the levels of a build expose.** No artifact stands in two levels. A level, with those
above it, exposes the artifacts of the foundation and, of every module from its own one up, the
dependencies less the modules up to its parent and the excluded artifacts. Unless modules are marked
by the kind of plain artifacts, no level exposes a module. All files exist; at the level of a module
they are those that the module's dependencies record if these exist, and the resolved ones
otherwise. -/
theorem build_exposure (assembly : Assembly) (root : Coordinate) (context : LoadingContext)
    (built : (assembly.build root).outcome = .ok context) :
    ∃ modules : List Coordinate,
      context.levels.map (·.module) = modules.map some ++ [none] ∧
      (context.levels.Pairwise fun inner outer => ∀ coordinate,
        inner.artifacts.contains coordinate = true →
          outer.artifacts.contains coordinate = false) ∧
      (∀ place ancestor, context.ancestry[place]? = some ancestor → ∀ coordinate,
        ancestor.exposes coordinate = true ↔
          context.foundation.artifacts.contains coordinate = true ∨
          ∃ higher module set, place ≤ higher ∧ modules[higher]? = some module ∧
            assembly.provider.dependencies module = .ok set ∧ set.contains coordinate = true ∧
            coordinate ∉ modules.take (higher + 2) ∧ coordinate ∉ assembly.excluded) ∧
      (Text.asciiLowercase assembly.foundation.moduleType ≠ Text.asciiLowercase "jar" →
        ∀ level ∈ context.levels, ∀ coordinate, level.artifacts.contains coordinate = true →
          assembly.foundation.isModule coordinate = false) ∧
      ∀ level ∈ context.levels, ∀ coordinate path,
        level.artifacts.find? coordinate = some path → assembly.tree.exists? path = true ∧
          ∀ module, level.module = some module →
            ∃ set recorded, assembly.provider.dependencies module = .ok set ∧
              set.find? coordinate = some recorded ∧
              (recorded = some path ∨
                (∀ file, recorded = some file → assembly.tree.exists? file = false) ∧
                  assembly.resolver coordinate = some path) := by
  obtain ⟨steps, climb, built⟩ := build_eq_ok_iff.mp built
  obtain ⟨foundation, founded, raised⟩ := raise_eq_ok_iff.mp built
  have plain := not_isModule_of_levels climb founded raised
  have files := file_of_levels climb founded raised
  obtain ⟨provided, artifacts, -, rfl, -⟩ := buildFoundation_spec founded
  refine ⟨steps.map (·.module), raised.modules, raised.disjoint,
    fun place ancestor here coordinate => ?_, plain, files⟩
  rw [(raised.at_place here).exposes_iff, exists_ownDependencies_iff climb, raised.foundation_eq]
  simp [LoadingContext.foundationOf, LoadingContext.exposes, LoadingContext.foundation]

/-- The context of the lower module exposes the library that both modules depend on, and no level
exposes a module. -/
theorem build_exposure_mutual :
    ∃ context, (mutualAssembly.build leafModule).outcome = .ok context ∧
      (context.levels.Pairwise fun inner outer => ∀ coordinate,
        inner.artifacts.contains coordinate = true →
          outer.artifacts.contains coordinate = false) ∧
      context.exposes sharedLibrary = true ∧
      (∀ level ∈ context.levels, ∀ coordinate, level.artifacts.contains coordinate = true →
        mutualAssembly.foundation.isModule coordinate = false) ∧
      ∀ level ∈ context.levels, ∀ path,
        level.artifacts.find? sharedLibrary = some path →
          mutualAssembly.tree.exists? path = true := by
  have known : ((mutualAssembly.buildWithin 3 leafModule).bind (·.outcome.toOption)).map
      (·.levels.map (·.module)) = some ([leafModule, baseModule].map some ++ [none]) := by
    decide +kernel
  obtain ⟨context, computed, same⟩ := Option.map_eq_some_iff.mp known
  have built := outcome_build_of_buildWithin
    (show mutualAssembly.provider.listed.length < 3 by decide +kernel) computed
  have other : Text.asciiLowercase mutualAssembly.foundation.moduleType ≠
      Text.asciiLowercase "jar" := by
    decide +kernel
  obtain ⟨modules, tags, disjoint, exposed, plain, files⟩ :=
    build_exposure mutualAssembly leafModule context built
  rw [same] at tags
  have modules_eq : [leafModule, baseModule] = modules :=
    List.map_injective_iff.mpr (fun _ _ => Option.some.inj) (List.append_cancel_right tags)
  subst modules_eq
  have answered : mutualLockfile.graphs.find? leafModule =
      some (mutualDependencies "/leaf.jar") := by
    decide +kernel
  have listed : mutualAssembly.provider.dependencies leafModule =
      .ok (mutualDependencies "/leaf.jar") := by
    show mutualLockfile.dependencies leafModule = _
    rw [DependencyLockfile.dependencies, answered]
  have here : context.ancestry[0]? = some context := by
    rw [← List.head?_eq_getElem?, LoadingContext.head?_ancestry]
  have visible : context.exposes sharedLibrary = true := by
    refine (exposed 0 context here sharedLibrary).mpr (.inr ⟨0, leafModule, _, Nat.le_refl _, rfl,
      listed, ?_, ?_, List.not_mem_nil⟩) <;> decide +kernel
  exact ⟨context, built, disjoint, visible, plain other, fun level member path found =>
    (files level member sharedLibrary path found).1⟩

end ExtensionCatalog.Assembly
