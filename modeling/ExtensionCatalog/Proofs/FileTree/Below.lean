/-
**Paths below a path.**

A path that is joined to another one leads below it unless it is absolute or has `.` or `..` for a
segment. What stands below a path depends on nothing but what stands below the place to which the
path leads.

* `FilePath.names`, `FilePath.Below`: the names on a path, and paths with more names than another;
* `FilePath.IsTame`: what can be joined to any path so that it leads below it;
* `FilePath.below_foldl_iff`: **joined paths lead below exactly if all of them are tame**;
* `walk_congr`, `exists?_congr`: **a lookup below a place reads nothing else**;
* `locate?_foldl_of_exists?`: what is found below a path stands below it.
-/

import ExtensionCatalog.Proofs.FileTree.Reach

namespace ExtensionCatalog

namespace FilePath

variable {path below : FilePath} {pieces : List String}

/-! ### Names -/

/-- The names on a path: its segments without the empty ones. -/
def names (path : FilePath) : List String := path.segments.filter (· ≠ "")

/-- Whether a path is another one, the root, with one or more components behind it. -/
def Below (root path : FilePath) : Prop :=
  path.isAbsolute = root.isAbsolute ∧
    ∃ components, components ≠ [] ∧ (∀ name ∈ components, FileTree.IsComponent name) ∧
      path.names = root.names ++ components

/-- Whether a path leads down only from the path that it is joined to. -/
structure IsTame (path : FilePath) : Prop where
  relative : path.isAbsolute = false
  plain : ∀ name ∈ path.segments, name ≠ "." ∧ name ≠ ".."

theorem names_join (relative : below.isAbsolute = false) :
    (path.join below).names = path.names ++ below.names := by
  obtain ⟨base, joined, own⟩ := path.segments_join relative
  rw [names, joined, List.filter_append]
  rcases own with own | own
  · rw [names, own, names]
  · rw [names, own, names, List.filter_append]
    simp

/-- There is a name on every relative path but the empty one. -/
theorem names_ne_nil (relative : path.isAbsolute = false) (some : path.text ≠ "") :
    path.names ≠ [] := by
  obtain ⟨c, more, characters⟩ := List.exists_cons_of_ne_nil (mt String.toList_eq_nil_iff.mp some)
  have different : c ≠ '/' := by
    rintro rfl
    rw [isAbsolute, characters] at relative
    cases relative
  rw [names, segments, Text.splitText, characters, Text.split, if_neg different]
  split <;> simp

theorem isAbsolute_foldl (path : FilePath) (pieces : List String) :
    (pieces.foldl joinText path).isAbsolute =
      (path.isAbsolute || pieces.any fun piece => isAbsolute ⟨piece⟩) := by
  induction pieces generalizing path with
  | nil => rw [List.foldl_nil, List.any_nil, Bool.or_false]
  | cons piece rest hypothesis =>
    rw [List.foldl_cons, hypothesis, joinText, isAbsolute_join, List.any_cons, Bool.or_assoc]

theorem names_foldl (relative : ∀ piece ∈ pieces, isAbsolute ⟨piece⟩ = false) (path : FilePath) :
    (pieces.foldl joinText path).names =
      path.names ++ pieces.flatMap fun piece => names ⟨piece⟩ := by
  induction pieces generalizing path with
  | nil => rw [List.foldl_nil, List.flatMap_nil, List.append_nil]
  | cons piece rest hypothesis =>
    obtain ⟨first, others⟩ := List.forall_mem_cons.mp relative
    rw [List.foldl_cons, hypothesis others, joinText, names_join first, List.flatMap_cons,
      List.append_assoc]

theorem mem_names {name : String} : name ∈ path.names ↔ name ∈ path.segments ∧ name ≠ "" := by
  rw [names, List.mem_filter, decide_eq_true_iff]

/-- The names on a tame path are components. -/
theorem IsTame.isComponent (tame : path.IsTame) {name : String} (member : name ∈ path.names) :
    FileTree.IsComponent name := by
  obtain ⟨inside, nonempty⟩ := mem_names.mp member
  exact FileTree.isComponent_of_mem_segments inside nonempty (tame.plain name inside)

/-- On a tame path no segments but the empty ones are idle. -/
theorem IsTame.filter_segments (tame : path.IsTame) :
    path.segments.filter (!isIdle ·) = path.names := by
  refine List.filter_congr fun name member => ?_
  rw [isIdle, beq_false_of_ne (tame.plain name member).1, Bool.or_false, decide_not]
  rfl

theorem filter_flatMap_segments (tame : ∀ piece ∈ pieces, IsTame ⟨piece⟩) :
    (pieces.flatMap fun piece => segments ⟨piece⟩).filter (!isIdle ·) =
      pieces.flatMap fun piece => names ⟨piece⟩ := by
  have each : pieces.map (fun piece => (segments ⟨piece⟩).filter (!isIdle ·)) =
      pieces.map fun piece => names ⟨piece⟩ :=
    List.map_congr_left fun piece member => (tame piece member).filter_segments
  rw [List.filter_flatMap, List.flatMap_def, List.flatMap_def, ← each]

/-- Tame pieces do not lead up. -/
theorem forall_ne_up (tame : ∀ piece ∈ pieces, IsTame ⟨piece⟩) :
    ∀ segment ∈ pieces.flatMap fun piece => segments ⟨piece⟩, segment ≠ ".." := by
  intro segment inside
  obtain ⟨piece, member, inside⟩ := List.mem_flatMap.mp inside
  exact ((tame piece member).plain segment inside).2

/-- A relative path whose names are components is tame. -/
theorem IsTame.of_isComponent (relative : path.isAbsolute = false)
    (components : ∀ name ∈ path.names, FileTree.IsComponent name) : path.IsTame where
  relative := relative
  plain name inside := by
    by_cases empty : name = ""
    · exact empty ▸ ⟨by decide, by decide⟩
    · obtain ⟨-, moving, notUp⟩ := components name (mem_names.mpr ⟨inside, empty⟩)
      refine ⟨?_, notUp⟩
      rintro rfl
      cases moving

/-- A text without slashes is a tame path exactly if it is neither `.` nor `..`. -/
theorem isTame_iff_of_not_mem {text : String} (plain : '/' ∉ text.toList) :
    IsTame ⟨text⟩ ↔ text ∉ [".", ".."] := by
  have only := segments_of_not_mem plain
  constructor
  · intro tame
    have := tame.plain text (by rw [only, List.mem_singleton])
    simpa using this
  · intro different
    refine ⟨isAbsolute_of_not_mem plain, fun name inside => ?_⟩
    rw [only, List.mem_singleton] at inside
    simpa [inside] using different

theorem isComponent_of_mem_flatMap (tame : ∀ piece ∈ pieces, IsTame ⟨piece⟩) {name : String}
    (inside : name ∈ pieces.flatMap fun piece => names ⟨piece⟩) : FileTree.IsComponent name := by
  obtain ⟨piece, member, inside⟩ := List.mem_flatMap.mp inside
  exact (tame piece member).isComponent inside

theorem flatMap_names_ne_nil (tame : ∀ piece ∈ pieces, IsTame ⟨piece⟩)
    (some : ∃ piece ∈ pieces, piece ≠ "") :
    (pieces.flatMap fun piece => names ⟨piece⟩) ≠ [] := by
  obtain ⟨piece, member, nonempty⟩ := some
  exact fun none => names_ne_nil (tame piece member).relative nonempty
    (List.flatMap_eq_nil_iff.mp none piece member)

/-- **Joined paths lead below exactly if all of them are tame.** -/
theorem below_foldl_iff (some : ∃ piece ∈ pieces, piece ≠ "") :
    (∀ root, Below root (pieces.foldl joinText root)) ↔ ∀ piece ∈ pieces, IsTame ⟨piece⟩ := by
  constructor
  · intro lead
    -- Nothing is joined to the empty path but the pieces themselves.
    obtain ⟨same, components, -, each, spelled⟩ := lead ⟨""⟩
    rw [isAbsolute_foldl] at same
    have relative : ∀ piece ∈ pieces, isAbsolute ⟨piece⟩ = false :=
      fun piece member => by simpa using List.any_eq_false.mp same piece member
    rw [names_foldl relative] at spelled
    have spelled : pieces.flatMap (fun piece => names ⟨piece⟩) = components := spelled
    refine fun piece member => .of_isComponent (relative piece member) fun name inside => ?_
    exact each name (spelled ▸ List.mem_flatMap.mpr ⟨piece, member, inside⟩)
  · intro tame root
    have relative : ∀ piece ∈ pieces, isAbsolute ⟨piece⟩ = false :=
      fun piece member => (tame piece member).relative
    refine ⟨?_, pieces.flatMap fun piece => names ⟨piece⟩, flatMap_names_ne_nil tame some,
      fun name => isComponent_of_mem_flatMap tame, names_foldl relative root⟩
    rw [isAbsolute_foldl, List.any_eq_false.mpr fun piece member => by
      simp [relative piece member], Bool.or_false]

end FilePath

/-! ### Lookups -/

namespace FileTree

open FilePath

variable {tree first second : FileTree} {path : FilePath} {place here location : Location}
  {pieces : List String}

/-- Whether the same stands at a place and below it. -/
def SameBelow (first second : FileTree) (place : Location) : Prop :=
  ∀ names, first.entryAt? (place ++ names) = second.entryAt? (place ++ names)

/-- **A walk that never leads up reads nothing but what is below where it starts.** -/
theorem walk_congr {segments : List String} (same : SameBelow first second place)
    (plain : ∀ segment ∈ segments, segment ≠ "..") (inside : place <+: here) :
    first.walk segments here = second.walk segments here := by
  induction segments generalizing here with
  | nil => rfl
  | cons segment rest hypothesis =>
    obtain ⟨notUp, others⟩ := List.forall_mem_cons.mp plain
    obtain ⟨names, rfl⟩ := inside
    rw [walk, walk, same, if_neg notUp, if_neg notUp, List.append_assoc, same,
      hypothesis others (List.prefix_append ..), hypothesis others (List.prefix_append ..)]

theorem exists?_eq_isSome (tree : FileTree) (path : FilePath) :
    tree.exists? path = (isLookupPath path && ((tree.place? path).bind tree.entryAt?).isSome) := by
  unfold exists? entry? locate? place?
  cases isLookupPath path <;> rfl

/-- **Whether something is below a path depends on what is below it only.** -/
theorem exists?_congr (tame : ∀ piece ∈ pieces, IsTame ⟨piece⟩)
    (leads : first.place? path = second.place? path)
    (same : ∀ place, first.place? path = some place → SameBelow first second place) :
    first.exists? (pieces.foldl joinText path) = second.exists? (pieces.foldl joinText path) := by
  have relative : ∀ piece ∈ pieces, isAbsolute ⟨piece⟩ = false :=
    fun piece member => (tame piece member).relative
  rw [exists?_eq_isSome, exists?_eq_isSome, place?_foldl_join relative,
    place?_foldl_join relative, ← leads]
  cases found : first.place? path with
  | none => rfl
  | some place =>
    have same := same place found
    have plain := forall_ne_up tame
    rw [Option.bind_some, Option.bind_some, walk_congr same plain (List.prefix_refl place)]
    cases reached : second.walk _ place with
    | none => rfl
    | some location =>
      rw [eq_append_filter_of_walk plain reached, Option.bind_some, Option.bind_some, same]

/-- **What is found below a path stands below the place to which the path leads.** -/
theorem locate?_foldl_of_exists? (tame : ∀ piece ∈ pieces, IsTame ⟨piece⟩)
    (found : tree.exists? (pieces.foldl joinText path) = true) :
    ∃ place, tree.place? path = some place ∧
      tree.locate? (pieces.foldl joinText path) =
        some (place ++ pieces.flatMap fun piece => names ⟨piece⟩) := by
  rw [exists?_eq_isSome, Bool.and_eq_true] at found
  obtain ⟨fits, stands⟩ := found
  obtain ⟨location, leads⟩ : ∃ location,
      tree.place? (pieces.foldl joinText path) = some location := by
    rw [← Option.isSome_iff_exists]
    exact Option.isSome_of_isSome_bind stands
  rw [locate?, if_pos fits]
  change ∃ place, _ ∧ tree.place? _ = _
  rw [place?_foldl_join fun piece member => (tame piece member).relative] at leads ⊢
  obtain ⟨place, first, down⟩ := Option.bind_eq_some_iff.mp leads
  refine ⟨place, first, ?_⟩
  rw [first, Option.bind_some, down,
    eq_append_filter_of_walk (forall_ne_up tame) down, filter_flatMap_segments tame]

end FileTree

end ExtensionCatalog
