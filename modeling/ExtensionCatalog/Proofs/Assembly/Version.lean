/-
**The version of an artifact that the modules depend on.**

An artifact is looked for in what the modules depend on and then, coordinate by coordinate, in what
these coordinates depend on themselves. Coordinates that nobody can answer for are passed over.

* `findSome?_eq_some_iff_of_ascending`: the first find in an ascending list;
* `DependencySet.HasVersion`: a set has an artifact in a version, that of its least coordinate;
* `VersionOf`: the version of an artifact, one case for each stage of the search;
* `providedVersion_eq_some_iff`, `providedVersion_eq_none_iff`: **the search finds this version**,
  and nothing if there is none.
-/

import ExtensionCatalog.Assembly
import ExtensionCatalog.Proofs.Outcome

namespace ExtensionCatalog

open Std

/-- **The first find in an ascending list** is that of the least item that has any. -/
theorem findSome?_eq_some_iff_of_ascending {α β : Type} [Ord α] [TransOrd α] {items : List α}
    (ascending : items.Pairwise fun first second => compare first second = .lt)
    {look : α → Option β} {result : β} :
    items.findSome? look = some result ↔ ∃ item ∈ items, look item = some result ∧
      ∀ other ∈ items, compare other item = .lt → look other = none := by
  induction items with
  | nil => simp
  | cons head tail hypothesis =>
    obtain ⟨below, ascending⟩ := List.pairwise_cons.mp ascending
    rw [List.findSome?_cons]
    cases found : look head with
    | some value =>
      dsimp only
      constructor
      · rintro ⟨⟩
        refine ⟨head, List.mem_cons_self, found, fun other member before => ?_⟩
        rcases List.mem_cons.mp member with rfl | later
        · simp at before
        · have after := OrientedCmp.gt_of_lt (below other later)
          rw [before] at after
          cases after
      · rintro ⟨item, member, here, first⟩
        rcases List.mem_cons.mp member with rfl | later
        · rw [← found, here]
        · rw [first head List.mem_cons_self (below item later)] at found
          cases found
    | none =>
      dsimp only
      rw [hypothesis ascending]
      constructor
      · rintro ⟨item, member, here, first⟩
        exact ⟨item, List.mem_cons_of_mem _ member, here,
          List.forall_mem_cons.mpr ⟨fun _ => found, first⟩⟩
      · rintro ⟨item, member, here, first⟩
        rcases List.mem_cons.mp member with rfl | later
        · rw [found] at here
          cases here
        · exact ⟨item, later, here, (List.forall_mem_cons.mp first).2⟩

/-! ### The version in one set -/

namespace DependencySet

theorem ascending_coordinates (set : DependencySet) :
    set.coordinates.Pairwise fun first second => compare first second = .lt :=
  List.pairwise_map.mpr set.records.ascending

theorem mem_coordinates_iff_contains (set : DependencySet) (coordinate : Coordinate) :
    coordinate ∈ set.coordinates ↔ set.contains coordinate = true :=
  set.records.mem_keys_iff_contains coordinate

/-- A set has an artifact in a version, that of its least coordinate that names the artifact. -/
def HasVersion (set : DependencySet) (key : ArtifactKey) (version : String) : Prop :=
  ∃ coordinate, set.contains coordinate = true ∧ key.holds coordinate = true ∧
    coordinate.version = version ∧
    ∀ other, set.contains other = true → compare other coordinate = .lt → key.holds other = false

end DependencySet

namespace Assembly

section Set

variable {key : ArtifactKey} {set : DependencySet}

theorem versionIn_eq_findSome? (key : ArtifactKey) (set : DependencySet) :
    versionIn key set = set.coordinates.findSome? fun coordinate =>
      if key.holds coordinate then some coordinate.version else none := by
  rw [versionIn]
  induction set.coordinates with
  | nil => rfl
  | cons coordinate rest hypothesis =>
    rw [List.find?_cons, List.findSome?_cons]
    cases key.holds coordinate with
    | true => rfl
    | false => exact hypothesis

theorem versionIn_eq_some_iff {version : String} :
    versionIn key set = some version ↔ set.HasVersion key version := by
  rw [versionIn_eq_findSome?, findSome?_eq_some_iff_of_ascending set.ascending_coordinates]
  simp [DependencySet.HasVersion, DependencySet.mem_coordinates_iff_contains, and_assoc]

theorem versionIn_eq_none_iff :
    versionIn key set = none ↔
      ∀ coordinate, set.contains coordinate = true → key.holds coordinate = false := by
  simp [versionIn, DependencySet.mem_coordinates_iff_contains]

end Set

/-! ### The version in all that modules depend on -/

/-- The version of an artifact that modules depend on: the one in which they depend on it directly,
or else the one that the first coordinate depends on that does so in any. -/
inductive VersionOf (provider : DependencyProvider) (accumulated : DependencySet)
    (key : ArtifactKey) : String → Prop
  | direct {version : String} (listed : accumulated.HasVersion key version) :
      VersionOf provider accumulated key version
  | through {version : String} {candidate : Coordinate} {set : DependencySet}
      (indirect : ∀ coordinate, accumulated.contains coordinate = true →
        key.holds coordinate = false)
      (member : accumulated.contains candidate = true)
      (answered : provider.dependencies candidate = .ok set)
      (listed : set.HasVersion key version)
      (first : ∀ earlier, accumulated.contains earlier = true → compare earlier candidate = .lt →
        ∀ other, provider.dependencies earlier = .ok other →
          ∀ coordinate, other.contains coordinate = true → key.holds coordinate = false) :
      VersionOf provider accumulated key version

/-- The version in which a coordinate depends on an artifact, if that can be told. -/
def versionBy (provider : DependencyProvider) (key : ArtifactKey) (candidate : Coordinate) :
    Option String :=
  (provider.dependencies candidate).toOption.bind (versionIn key)

section Search

variable {provider : DependencyProvider} {key : ArtifactKey} {candidate : Coordinate}

theorem versionBy_eq_some_iff {version : String} :
    versionBy provider key candidate = some version ↔
      ∃ set, provider.dependencies candidate = .ok set ∧ set.HasVersion key version := by
  rw [versionBy]
  cases provider.dependencies candidate with
  | error error => simp [Except.toOption]
  | ok set => simp [Except.toOption, versionIn_eq_some_iff]

theorem versionBy_eq_none_iff :
    versionBy provider key candidate = none ↔
      ∀ set, provider.dependencies candidate = .ok set →
        ∀ coordinate, set.contains coordinate = true → key.holds coordinate = false := by
  rw [versionBy]
  cases provider.dependencies candidate with
  | error error => simp [Except.toOption]
  | ok set => simp [Except.toOption, versionIn_eq_none_iff]

/-- The search through coordinates takes the first version that one of them leads to. -/
theorem outcome_versionThrough (candidates : List Coordinate) :
    (versionThrough provider key candidates).outcome =
      .ok (candidates.findSome? (versionBy provider key)) := by
  induction candidates with
  | nil => rfl
  | cons candidate rest hypothesis =>
    rw [versionThrough, List.findSome?_cons]
    cases answered : provider.dependencies candidate with
    | error error =>
      simp only [versionBy, answered, Except.toOption, Option.bind_none]
      exact hypothesis
    | ok set =>
      simp only [versionBy, answered, Except.toOption, Option.bind_some]
      cases versionIn key set with
      | some version => rfl
      | none => exact hypothesis

end Search

section Provided

variable {assembly : Assembly} {accumulated : DependencySet} {key : ArtifactKey} {version : String}

theorem outcome_providedVersion :
    (assembly.providedVersion accumulated key).outcome =
      .ok ((versionIn key accumulated).or
        (accumulated.coordinates.findSome? (versionBy assembly.provider key))) := by
  rw [providedVersion]
  cases versionIn key accumulated with
  | some version => rfl
  | none => exact outcome_versionThrough _

/-- **The search finds the version of an artifact.** -/
theorem providedVersion_eq_some_iff :
    (assembly.providedVersion accumulated key).outcome = .ok (some version) ↔
      VersionOf assembly.provider accumulated key version := by
  rw [outcome_providedVersion, Except.ok.injEq]
  cases here : versionIn key accumulated with
  | some direct =>
    rw [Option.some_or]
    constructor
    · rintro ⟨⟩
      exact .direct (versionIn_eq_some_iff.mp here)
    · rintro (listed | ⟨indirect, -⟩)
      · rw [← here, versionIn_eq_some_iff.mpr listed]
      · rw [versionIn_eq_none_iff.mpr indirect] at here
        cases here
  | none =>
    rw [Option.none_or, findSome?_eq_some_iff_of_ascending accumulated.ascending_coordinates]
    simp only [DependencySet.mem_coordinates_iff_contains, versionBy_eq_some_iff,
      versionBy_eq_none_iff]
    constructor
    · rintro ⟨candidate, member, ⟨set, answered, listed⟩, first⟩
      exact .through (versionIn_eq_none_iff.mp here) member answered listed first
    · rintro (listed | ⟨-, member, answered, listed, first⟩)
      · rw [versionIn_eq_some_iff.mpr listed] at here
        cases here
      · exact ⟨_, member, ⟨_, answered, listed⟩, first⟩

/-- The search fails to find a version only if there is none. -/
theorem providedVersion_eq_none_iff :
    (assembly.providedVersion accumulated key).outcome = .ok none ↔
      ∀ version, ¬ VersionOf assembly.provider accumulated key version := by
  simp only [← providedVersion_eq_some_iff, outcome_providedVersion, Except.ok.injEq]
  exact Option.eq_none_iff_forall_ne_some

/-- The versions of an artifact, at most one. -/
theorem exists_version (assembly : Assembly) (accumulated : DependencySet) (key : ArtifactKey) :
    ∃ found : Option String, ∀ version,
      found = some version ↔ VersionOf assembly.provider accumulated key version := by
  simp only [← providedVersion_eq_some_iff, outcome_providedVersion, Except.ok.injEq]
  exact ⟨_, fun _ => Iff.rfl⟩

/-- An artifact has one version at most. -/
theorem VersionOf.unique {provider : DependencyProvider} {other : String}
    (first : VersionOf provider accumulated key version)
    (second : VersionOf provider accumulated key other) : version = other := by
  let assembly : Assembly :=
    { provider, foundation := {}, excluded := [], resolver := fun _ => none, tree := ⟨∅, []⟩,
      chain := 0 }
  have one : (assembly.providedVersion accumulated key).outcome = .ok (some version) :=
    providedVersion_eq_some_iff.mpr first
  have two : (assembly.providedVersion accumulated key).outcome = .ok (some other) :=
    providedVersion_eq_some_iff.mpr second
  rw [one] at two
  cases two
  rfl

/-- **A direct dependency settles the version.** Whatever else anybody depends on, it does not
matter. -/
theorem VersionOf.congr {provider other : DependencyProvider}
    (direct : ∃ coordinate, accumulated.contains coordinate = true ∧ key.holds coordinate = true) :
    VersionOf other accumulated key version ↔ VersionOf provider accumulated key version := by
  obtain ⟨coordinate, member, holds⟩ := direct
  have settled : ∀ {provider other : DependencyProvider},
      VersionOf provider accumulated key version → VersionOf other accumulated key version := by
    rintro provider other (listed | ⟨indirect, -⟩)
    · exact .direct listed
    · rw [indirect coordinate member] at holds
      cases holds
  exact ⟨settled, settled⟩

end Provided

end Assembly

end ExtensionCatalog
