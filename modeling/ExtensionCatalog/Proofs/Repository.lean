/-
**When artifacts are stored below the root of their repository.**

The fields of a coordinate are joined to the root one after another, and reading a coordinate only
asks that none of them is empty or holds a colon. So an absolute field leads to a place that has
nothing to do with the root, and one that is `..` leads up again.

* `IsConfined`: the coordinates that have no such field;
* `isConfined_iff`: they are those with tame segments;
* `isConfined_iff_of_not_mem`: without slashes, an artifact id and a version that are neither `.`
  nor `..` are enough;
* `exists_of_resolve`, `resolve_congr`: what is resolved for them is below the root, whatever
  stands elsewhere;
* `pathOf_below_iff`: **artifacts are stored below the root exactly if they are confined**.
-/

import ExtensionCatalog.Proofs.Coordinate
import ExtensionCatalog.Proofs.FileTree.Below
import ExtensionCatalog.Repository

namespace ExtensionCatalog

namespace LocalRepository

variable {coordinate : Coordinate}

/-- Whether the fields of a coordinate keep its artifact below the root. A classifier and a kind
count as they are spelled in the name of the file. -/
structure IsConfined (coordinate : Coordinate) : Prop where
  group : ∀ piece ∈ Text.splitText '.' coordinate.group, FilePath.isAbsolute ⟨piece⟩ = false
  artifact : FilePath.IsTame ⟨coordinate.artifact⟩
  version : FilePath.IsTame ⟨coordinate.version⟩
  file : ∀ name ∈ FilePath.segments ⟨fileName coordinate⟩, name ≠ "." ∧ name ≠ ".."

/-! ### The name of the file -/

/-- What stands behind the artifact id in the name of the file. -/
def fileNameRest (coordinate : Coordinate) : List Char :=
  '-' :: coordinate.version.toList ++
    (coordinate.classifier.elim [] fun classifier => '-' :: classifier.toList) ++
    '.' :: coordinate.kind.toList.map Char.toLower

theorem toList_fileName (coordinate : Coordinate) :
    (fileName coordinate).toList = coordinate.artifact.toList ++ fileNameRest coordinate := by
  rw [fileName, fileNameRest, String.toList_append, String.toList_append,
    String.toList_intercalate, Text.asciiLowercase, String.toList_ofList]
  cases coordinate.classifier <;> simp [List.intercalate]

theorem isAbsolute_fileName (some : coordinate.artifact ≠ "") :
    FilePath.isAbsolute ⟨fileName coordinate⟩ = FilePath.isAbsolute ⟨coordinate.artifact⟩ := by
  have begins : coordinate.artifact.toList <+: (fileName coordinate).toList := by
    rw [toList_fileName]
    exact List.prefix_append _ _
  rw [FilePath.isAbsolute, FilePath.isAbsolute, Text.head?_eq_of_prefix some begins]

/-- Without slashes in the fields there is none in the name of the file. -/
theorem not_mem_fileName (plain : ∀ part ∈ coordinate.parts, '/' ∉ part.toList) :
    '/' ∉ (fileName coordinate).toList := by
  have kind : '/' ∉ coordinate.kind.toList.map Char.toLower :=
    mt (Text.mem_map_toLower_iff rfl).mp (plain coordinate.kind (by simp [Coordinate.parts]))
  have artifact := plain coordinate.artifact (by simp [Coordinate.parts])
  have version := plain coordinate.version (by simp [Coordinate.parts])
  rw [toList_fileName, fileNameRest]
  cases stated : coordinate.classifier with
  | none => simp_all
  | some classifier =>
    have classifier := plain classifier (by simp [Coordinate.parts, stated])
    simp_all

/-! ### Confined coordinates -/

/-- **The confined coordinates are those whose segments are tame.** -/
theorem isConfined_iff (some : coordinate.artifact ≠ "") :
    IsConfined coordinate ↔ ∀ piece ∈ segments coordinate, FilePath.IsTame ⟨piece⟩ := by
  have tame {piece : String} (member : piece ∈ Text.splitText '.' coordinate.group)
      (relative : FilePath.isAbsolute ⟨piece⟩ = false) : FilePath.IsTame ⟨piece⟩ := by
    refine ⟨relative, fun name inside => ?_⟩
    have noDot : '.' ∉ name.toList := fun dot =>
      Text.not_mem_of_mem_splitText member (Text.subset_of_mem_splitText inside dot)
    constructor <;> rintro rfl <;> exact noDot (by decide)
  simp only [segments, List.forall_mem_append, List.forall_mem_cons]
  constructor
  · intro confined
    refine ⟨fun piece member => tame member (confined.group piece member), confined.artifact,
      confined.version, ⟨?_, confined.file⟩, List.forall_mem_nil _⟩
    exact (isAbsolute_fileName some).trans confined.artifact.relative
  · rintro ⟨group, artifact, version, file, -⟩
    exact ⟨fun piece member => (group piece member).relative, artifact, version, file.plain⟩

/-- **Without slashes the artifact id and the version decide.** -/
theorem isConfined_iff_of_not_mem (plain : ∀ part ∈ coordinate.parts, '/' ∉ part.toList) :
    IsConfined coordinate ↔
      coordinate.artifact ∉ [".", ".."] ∧ coordinate.version ∉ [".", ".."] := by
  have group := plain coordinate.group (by simp [Coordinate.parts])
  have artifact := plain coordinate.artifact (by simp [Coordinate.parts])
  have version := plain coordinate.version (by simp [Coordinate.parts])
  rw [← FilePath.isTame_iff_of_not_mem artifact, ← FilePath.isTame_iff_of_not_mem version]
  constructor
  · exact fun confined => ⟨confined.artifact, confined.version⟩
  · rintro ⟨artifact, version⟩
    refine ⟨fun piece member => ?_, artifact, version, ?_⟩
    · exact FilePath.isAbsolute_of_not_mem fun slash =>
        group (Text.subset_of_mem_splitText member slash)
    · refine ((FilePath.isTame_iff_of_not_mem (not_mem_fileName plain)).mpr fun dots => ?_).plain
      -- The hyphen behind the artifact id is no dot.
      have hyphen : '-' ∈ (fileName coordinate).toList := by
        rw [toList_fileName, fileNameRest]
        simp
      have noHyphen : ∀ name ∈ [".", ".."], '-' ∉ name.toList := by decide
      exact noHyphen _ dots hyphen

/-! ### Resolving -/

variable {root path : FilePath} {tree other : FileTree}

theorem resolve_eq_ok_iff {repository : LocalRepository} :
    repository.resolve tree coordinate = .ok path ↔
      repository.pathOf coordinate = path ∧ tree.exists? (repository.pathOf coordinate) = true := by
  rw [resolve]
  split
  · next there => simp [there]
  · next absent => simp [absent]

/-- **What is resolved for a confined coordinate stands below the root**, where its path says. -/
theorem exists_of_resolve (some : coordinate.artifact ≠ "") (confined : IsConfined coordinate)
    (resolved : resolve ⟨root⟩ tree coordinate = .ok path) :
    ∃ place components, tree.place? root = Option.some place ∧ components ≠ [] ∧
      (∀ name ∈ components, FileTree.IsComponent name) ∧
      path.names = root.names ++ components ∧
      tree.locate? path = Option.some (place ++ components) := by
  have tame := (isConfined_iff some).mp confined
  obtain ⟨rfl, there⟩ := resolve_eq_ok_iff.mp resolved
  obtain ⟨place, leads, located⟩ := FileTree.locate?_foldl_of_exists? tame there
  refine ⟨place, _, leads, FilePath.flatMap_names_ne_nil tame ⟨coordinate.artifact, ?_, some⟩,
    fun name => FilePath.isComponent_of_mem_flatMap tame, ?_, located⟩
  · simp [segments]
  · exact FilePath.names_foldl (fun piece member => (tame piece member).relative) root

/-- **Resolving a confined coordinate reads nothing but what is below the root.** -/
theorem resolve_congr (some : coordinate.artifact ≠ "") (confined : IsConfined coordinate)
    (leads : tree.place? root = other.place? root)
    (same : ∀ place, tree.place? root = Option.some place → tree.SameBelow other place) :
    resolve ⟨root⟩ tree coordinate = resolve ⟨root⟩ other coordinate := by
  have there : tree.exists? (pathOf ⟨root⟩ coordinate) = other.exists? (pathOf ⟨root⟩ coordinate) :=
    FileTree.exists?_congr ((isConfined_iff some).mp confined) leads same
  rw [resolve, resolve, there]

/-- **Artifacts are stored below the root exactly if their coordinates are confined.** Then what is
resolved stands below the root, and nothing else is read for it. -/
theorem pathOf_below_iff {text : String} (read : Coordinate.parse text = .ok coordinate) :
    ((∀ root, FilePath.Below root (pathOf ⟨root⟩ coordinate)) ↔ IsConfined coordinate) ∧
    ((∀ part ∈ coordinate.parts, '/' ∉ part.toList) →
      (IsConfined coordinate ↔
        coordinate.artifact ∉ [".", ".."] ∧ coordinate.version ∉ [".", ".."])) ∧
    (IsConfined coordinate → ∀ (root : FilePath) (tree : FileTree),
      (∀ path, resolve ⟨root⟩ tree coordinate = .ok path →
        ∃ place components, tree.place? root = some place ∧ components ≠ [] ∧
          (∀ name ∈ components, FileTree.IsComponent name) ∧
          path.names = root.names ++ components ∧
          tree.locate? path = some (place ++ components)) ∧
      ∀ other : FileTree, tree.place? root = other.place? root →
        (∀ place, tree.place? root = some place → tree.SameBelow other place) →
        resolve ⟨root⟩ tree coordinate = resolve ⟨root⟩ other coordinate) := by
  have nonempty : coordinate.artifact ≠ "" :=
    (Coordinate.parse?_eq_some_iff.mp (Coordinate.parse_eq_ok_iff.mp read)).1.artifact.1
  refine ⟨?_, isConfined_iff_of_not_mem, fun confined root tree => ⟨?_, ?_⟩⟩
  · rw [isConfined_iff nonempty]
    exact FilePath.below_foldl_iff ⟨coordinate.artifact, by simp [segments], nonempty⟩
  · exact fun path => exists_of_resolve nonempty confined
  · exact fun other => resolve_congr nonempty confined

/-- A repository with one artifact. -/
def storedTree : FileTree where
  entries := .ofList [(["repo"], .directory), (["repo", "g"], .directory),
    (["repo", "g", "a"], .directory), (["repo", "g", "a", "1"], .directory),
    (["repo", "g", "a", "1", "a-1.jar"], .file [])]
  workingDirectory := []

/-- The same repository with a file beside it. -/
def besideTree : FileTree := storedTree.put ["etc-1.jar"] (.file [])

theorem sameBelow_besideTree : storedTree.SameBelow besideTree ["repo"] := by
  intro names
  rw [besideTree, FileTree.entryAt?_put (List.cons_ne_nil _ _), if_neg (by simp)]

/-- The artifact of `storedTree` is found there, and with a file beside the repository as well. -/
theorem pathOf_below_iff_storedTree :
    Coordinate.parse "g:a:1" = .ok (.jar "g" "a" "1") ∧ IsConfined (.jar "g" "a" "1") ∧
      FilePath.Below ⟨"/repo"⟩ (pathOf ⟨⟨"/repo"⟩⟩ (.jar "g" "a" "1")) ∧
      (∃ place components, storedTree.place? ⟨"/repo"⟩ = some place ∧ components ≠ [] ∧
        (∀ name ∈ components, FileTree.IsComponent name) ∧
        FilePath.names ⟨"/repo/g/a/1/a-1.jar"⟩ = FilePath.names ⟨"/repo"⟩ ++ components ∧
        storedTree.locate? ⟨"/repo/g/a/1/a-1.jar"⟩ = some (place ++ components)) ∧
      resolve ⟨⟨"/repo"⟩⟩ storedTree (.jar "g" "a" "1") =
        resolve ⟨⟨"/repo"⟩⟩ besideTree (.jar "g" "a" "1") := by
  have read : Coordinate.parse "g:a:1" = .ok (.jar "g" "a" "1") :=
    Coordinate.parse_eq_ok_iff.mpr (by decide)
  obtain ⟨below, plain, down⟩ := pathOf_below_iff read
  have confined := (plain (by decide)).mpr (by decide)
  obtain ⟨found, alike⟩ := down confined ⟨"/repo"⟩ storedTree
  have there : storedTree.place? ⟨"/repo"⟩ = some ["repo"] := by decide +kernel
  refine ⟨read, confined, below.mpr confined _, found _ ?_, alike besideTree ?_ ?_⟩
  · exact resolve_eq_ok_iff.mpr ⟨by decide, by decide +kernel⟩
  · decide +kernel
  · rintro place leads
    obtain rfl := Option.some.inj (there.symm.trans leads)
    exact sameBelow_besideTree

/-- **Not every artifact is stored below the root.** An absolute artifact id leads to a file beside
the repository, and one that is `..` up to the root and above it. -/
theorem absolute_artifact_escapes :
    Coordinate.parse "g:/etc:1" = .ok (.jar "g" "/etc" "1") ∧
      pathOf ⟨⟨"/repo"⟩⟩ (.jar "g" "/etc" "1") = ⟨"/etc-1.jar"⟩ ∧
      ¬ FilePath.Below ⟨"/repo"⟩ ⟨"/etc-1.jar"⟩ ∧
      resolve ⟨⟨"/repo"⟩⟩ besideTree (.jar "g" "/etc" "1") = .ok ⟨"/etc-1.jar"⟩ ∧
      resolve ⟨⟨"/repo"⟩⟩ storedTree (.jar "g" "/etc" "1") =
        .error (.unresolvableArtifact (.jar "g" "/etc" "1")) ∧
      Coordinate.parse ".:..:1" = .ok (.jar "." ".." "1") ∧
      pathOf ⟨⟨"/repo"⟩⟩ (.jar "." ".." "1") = ⟨"/repo/../1/..-1.jar"⟩ ∧
      ¬ FilePath.Below ⟨"/repo"⟩ ⟨"/repo/../1/..-1.jar"⟩ := by
  have root : FilePath.names ⟨"/repo"⟩ = ["repo"] := by decide
  refine ⟨Coordinate.parse_eq_ok_iff.mpr (by decide), by decide, ?_,
    resolve_eq_ok_iff.mpr ⟨by decide, by decide +kernel⟩, ?_,
    Coordinate.parse_eq_ok_iff.mpr (by decide), by decide, ?_⟩
  · rintro ⟨-, components, -, -, spelled⟩
    have names : FilePath.names ⟨"/etc-1.jar"⟩ = ["etc-1.jar"] := by decide
    rw [names, root] at spelled
    exact absurd (List.cons.inj spelled).1 (by decide)
  · have absent : storedTree.exists? ⟨"/etc-1.jar"⟩ = false := by decide +kernel
    have path : pathOf ⟨⟨"/repo"⟩⟩ (.jar "g" "/etc" "1") = ⟨"/etc-1.jar"⟩ := by decide
    rw [resolve, path, absent]
    rfl
  · rintro ⟨-, components, -, each, spelled⟩
    have names : FilePath.names ⟨"/repo/../1/..-1.jar"⟩ = ["repo", "..", "1", "..-1.jar"] := by
      decide
    rw [names, root] at spelled
    obtain rfl : ["..", "1", "..-1.jar"] = components := (List.cons.inj spelled).2
    exact (each ".." List.mem_cons_self).2.2 rfl

end LocalRepository

end ExtensionCatalog
