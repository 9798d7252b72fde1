/-
**The supertypes of a class.**

A context loads every class of its chain by name, so a name stands for one class of a chain. The
supertypes of a class are looked up as the level that defines the class sees them.

* `IsLoaded.eq_of_name_eq`: a name stands for one class;
* `SupertypeYields`: what looking up a direct supertype comes to;
* `mem_supertypes_iff`, `supertypeYields_of_supertypes_eq_error`: **the supertypes found are those
  that the lookups yield**, and an error is the error of a lookup;
* `Reachable`: a class and its supertypes, direct and indirect.
-/

import Mathlib.Data.List.ReduceOption
import ExtensionCatalog.Proofs.LoadingContext.Definable

namespace ExtensionCatalog.LoadingContext

variable {tree : FileTree} {context ancestor : LoadingContext} {type candidate : LoadedClass}

/-! ### Classes of a chain -/

/-- Whether the context loads a class by its name. -/
def IsLoaded (context : LoadingContext) (tree : FileTree) (type : LoadedClass) : Prop :=
  (context.load tree type.name).outcome = .ok type

theorem name_eq_of_load {name : String} (found : (context.load tree name).outcome = .ok type) :
    type.name = name := by
  obtain ⟨resource, -, defined⟩ := load_eq_ok_iff.mp found
  exact (define_eq_ok_iff.mp defined).2.1

/-- What an ancestor loads under a name, the context loads under that name. -/
theorem load_eq_ok_of_mem_ancestry {name : String} (above : ancestor ∈ context.ancestry)
    (found : (ancestor.load tree name).outcome = .ok type) :
    (context.load tree name).outcome = .ok type := by
  rcases load_of_mem_ancestry above with same | missing
  · rw [← same, found]
  · rw [found] at missing
    cases missing

theorem isLoaded_of_load {name : String} (above : ancestor ∈ context.ancestry)
    (found : (ancestor.load tree name).outcome = .ok type) : context.IsLoaded tree type := by
  unfold IsLoaded
  rw [name_eq_of_load found]
  exact load_eq_ok_of_mem_ancestry above found

section LoadFrom

variable {level : LevelId} {name : String}

theorem name_eq_of_loadFrom (found : (context.loadFrom tree level name).outcome = .ok type) :
    type.name = name := by
  obtain ⟨ancestor, -, same⟩ := exists_loadFrom context tree level name
  rw [same] at found
  exact name_eq_of_load found

theorem isLoaded_of_loadFrom (found : (context.loadFrom tree level name).outcome = .ok type) :
    context.IsLoaded tree type := by
  obtain ⟨ancestor, above, same⟩ := exists_loadFrom context tree level name
  rw [same] at found
  exact isLoaded_of_load above found

end LoadFrom

/-- A name stands for one class of a chain. -/
theorem IsLoaded.eq_of_name_eq {other : LoadedClass} (loaded : context.IsLoaded tree type)
    (loaded' : context.IsLoaded tree other) (same : type.name = other.name) : type = other := by
  unfold IsLoaded at loaded loaded'
  rw [same, loaded'] at loaded
  cases loaded
  rfl

theorem IsLoaded.exists_level (loaded : context.IsLoaded tree type) :
    ∃ defining ∈ context.ancestry, defining.level.id = type.definedBy := by
  obtain ⟨defining, above, same, -⟩ := exists_defining loaded
  exact ⟨defining, above, same⟩

/-- A level that defines a class is asked through its own context. -/
theorem loadFrom_of_mem_ancestry (distinct : (context.levels.map (·.id)).Nodup)
    (above : ancestor ∈ context.ancestry) (name : String) :
    context.loadFrom tree ancestor.level.id name = ancestor.load tree name := by
  unfold loadFrom
  rw [at?_of_mem_ancestry distinct above]
  rfl

/-! ### Direct supertypes -/

/-- Whether looking up some direct supertype of a class, as the level that defines the class sees
it, has an outcome. -/
def SupertypeYields (context : LoadingContext) (tree : FileTree) (type : LoadedClass)
    (outcome : Except Error LoadedClass) : Prop :=
  ∃ defining ∈ context.ancestry, defining.level.id = type.definedBy ∧
    ∃ name ∈ supertypeNames type, (defining.load tree name).outcome = outcome

theorem supertypeYields_iff (distinct : (context.levels.map (·.id)).Nodup)
    (loaded : context.IsLoaded tree type) {outcome : Except Error LoadedClass} :
    context.SupertypeYields tree type outcome ↔ ∃ name ∈ supertypeNames type,
      (context.loadFrom tree type.definedBy name).outcome = outcome := by
  constructor
  · intro yields
    obtain ⟨defining, above, same, name, declared, looked⟩ := yields
    refine ⟨name, declared, ?_⟩
    rw [← same, loadFrom_of_mem_ancestry distinct above, looked]
  · intro asked
    obtain ⟨name, declared, looked⟩ := asked
    obtain ⟨defining, above, same⟩ := loaded.exists_level
    refine ⟨defining, above, same, name, declared, ?_⟩
    rw [← loadFrom_of_mem_ancestry distinct above, same, looked]

/-- The supertypes of a class of a chain are classes of the chain. -/
theorem SupertypeYields.isLoaded {found : LoadedClass}
    (yields : context.SupertypeYields tree type (.ok found)) : context.IsLoaded tree found := by
  obtain ⟨defining, above, -, name, -, looked⟩ := yields
  exact isLoaded_of_load above looked

section Lookup

variable {level : LevelId} {name : String}

theorem loadIfPresent_eq_ok_some_iff {found : LoadedClass} :
    (context.loadIfPresent tree level name).outcome = .ok (some found) ↔
      (context.loadFrom tree level name).outcome = .ok found := by
  unfold loadIfPresent
  rw [Logged.outcome_bind, Logged.outcome_attempt]
  cases (context.loadFrom tree level name).outcome with
  | ok other => exact ⟨fun equal => by cases equal; rfl, fun equal => by cases equal; rfl⟩
  | error error =>
    refine iff_of_false (fun equal => ?_) (fun equal => by cases equal)
    cases error <;> cases equal

/-- A missing class is passed over; every other error is kept. -/
theorem loadIfPresent_eq_error_iff {error : Error} :
    (context.loadIfPresent tree level name).outcome = .error error ↔
      (context.loadFrom tree level name).outcome = .error error ∧
        ∀ missing, error ≠ .classNotFound missing := by
  unfold loadIfPresent
  rw [Logged.outcome_bind, Logged.outcome_attempt]
  cases (context.loadFrom tree level name).outcome with
  | ok other => exact iff_of_false (fun equal => by cases equal) (fun both => by cases both.1)
  | error other =>
    constructor
    · intro equal
      cases other <;> cases equal <;> exact ⟨rfl, fun missing same => by cases same⟩
    · intro both
      obtain ⟨equal, kept⟩ := both
      cases equal
      cases error
      case classNotFound missing => exact absurd rfl (kept missing)
      all_goals rfl

end Lookup

/-- The supertypes that are found are those that the level defining the class loads. -/
theorem mem_supertypes_iff_loadFrom {found : List LoadedClass}
    (met : (context.supertypes tree type).outcome = .ok found) {next : LoadedClass} :
    next ∈ found ↔ ∃ name ∈ supertypeNames type,
      (context.loadFrom tree type.definedBy name).outcome = .ok next := by
  unfold supertypes at met
  rw [Logged.outcome_bind, Logged.outcome_mapM] at met
  obtain ⟨each, mapped, whole⟩ := Outcome.bind_eq_ok_iff.mp met
  cases whole
  rw [List.reduceOption_mem_iff, Outcome.mem_of_mapM_eq_ok mapped]
  simp only [loadIfPresent_eq_ok_some_iff]

theorem isLoaded_of_supertypes {found : List LoadedClass}
    (met : (context.supertypes tree type).outcome = .ok found) :
    ∀ next ∈ found, context.IsLoaded tree next := by
  intro next member
  obtain ⟨name, -, looked⟩ := (mem_supertypes_iff_loadFrom met).mp member
  exact isLoaded_of_loadFrom looked

section Supertypes

variable (distinct : (context.levels.map (·.id)).Nodup) (loaded : context.IsLoaded tree type)

include distinct loaded

/-- The supertypes that are found are those that the lookups yield. -/
theorem mem_supertypes_iff {found : List LoadedClass}
    (met : (context.supertypes tree type).outcome = .ok found) {next : LoadedClass} :
    next ∈ found ↔ context.SupertypeYields tree type (.ok next) := by
  rw [mem_supertypes_iff_loadFrom met, supertypeYields_iff distinct loaded]

/-- The supertypes fail with an error of a lookup that is not a missing class. -/
theorem supertypeYields_of_supertypes_eq_error {error : Error}
    (failed : (context.supertypes tree type).outcome = .error error) :
    context.SupertypeYields tree type (.error error) ∧
      ∀ missing, error ≠ .classNotFound missing := by
  unfold supertypes at failed
  rw [Logged.outcome_bind, Logged.outcome_mapM] at failed
  rcases Outcome.bind_eq_error_iff.mp failed with looked | ⟨each, -, equal⟩
  · obtain ⟨before, name, after, declared, -, here⟩ := Outcome.mapM_eq_error_iff.mp looked
    obtain ⟨looked, kept⟩ := loadIfPresent_eq_error_iff.mp here
    refine ⟨(supertypeYields_iff distinct loaded).mpr ⟨name, ?_, looked⟩, kept⟩
    rw [declared]
    exact List.mem_append_right _ List.mem_cons_self
  · cases equal

end Supertypes

/-- A class, and whatever is a direct supertype of a reachable class. -/
inductive Reachable (context : LoadingContext) (tree : FileTree) (candidate : LoadedClass) :
    LoadedClass → Prop
  | candidate : Reachable context tree candidate candidate
  | supertype {type found : LoadedClass} (reached : Reachable context tree candidate type)
      (yields : context.SupertypeYields tree type (.ok found)) :
      Reachable context tree candidate found

theorem Reachable.isLoaded (reached : context.Reachable tree candidate type)
    (loaded : context.IsLoaded tree candidate) : context.IsLoaded tree type := by
  cases reached with
  | candidate => exact loaded
  | supertype _ yields => exact yields.isLoaded

end ExtensionCatalog.LoadingContext
