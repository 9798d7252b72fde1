/-
**Different artifacts are stored in different files.**

The fields of a coordinate are joined with slashes, hyphens and points, which may also stand inside
of fields: `a-1-b.jar` is the file of version `1` with classifier `b` and of version `1-b` without.
But the directories above the file spell out artifact id and version once more, and so the whole
path can be taken apart again.

* `HasPlainFields`: the coordinates whose fields are names of directories and files;
* `names_pathOf`: the names on the path of such a coordinate, behind those of the root;
* `fileNameRest_eq_iff`: classifier and kind are found in the name of the file;
* `pathOf_eq_iff`: **paths are equal exactly for coordinates that differ in the case of the kind
  only**.
-/

import ExtensionCatalog.Proofs.Repository

namespace ExtensionCatalog

/-- A text can be taken apart at its last separator. -/
theorem Text.append_cons_inj_of_not_mem {separator : Char} {first second rest other : List Char}
    (absent : separator ∉ rest) (absent' : separator ∉ other) :
    first ++ separator :: rest = second ++ separator :: other ↔ first = second ∧ rest = other := by
  refine ⟨fun same => ?_, by rintro ⟨rfl, rfl⟩; rfl⟩
  -- One of the two fronts is longer, and what it is longer by would begin with a separator.
  rcases List.append_eq_append_iff.mp same with ⟨_ | ⟨c, more⟩, longer, back⟩ |
    ⟨_ | ⟨c, more⟩, longer, back⟩
  · rw [List.append_nil] at longer
    exact ⟨longer.symm, (List.cons.inj back).2⟩
  · obtain ⟨-, rfl⟩ := List.cons.inj back
    exact absurd (List.mem_append_right more List.mem_cons_self) absent
  · rw [List.append_nil] at longer
    exact ⟨longer, (List.cons.inj back).2.symm⟩
  · obtain ⟨-, rfl⟩ := List.cons.inj back
    exact absurd (List.mem_append_right more List.mem_cons_self) absent'

/-- A text without slashes is the only name on its path. -/
theorem FilePath.names_of_not_mem {name : String} (plain : '/' ∉ name.toList) (some : name ≠ "") :
    FilePath.names ⟨name⟩ = [name] := by
  rw [names, segments_of_not_mem plain]
  exact List.filter_eq_self.mpr (List.forall_mem_singleton.mpr (decide_eq_true some))

namespace LocalRepository

/-- Whether the fields of a coordinate are names of directories and files: no field holds a slash,
no directory has an empty name, and the kind is one extension. -/
structure HasPlainFields (coordinate : Coordinate) : Prop where
  fields : ∀ part ∈ coordinate.parts, '/' ∉ part.toList
  group : ∀ piece ∈ Text.splitText '.' coordinate.group, piece ≠ ""
  artifact : coordinate.artifact ≠ ""
  version : coordinate.version ≠ ""
  kind : '.' ∉ coordinate.kind.toList

variable {coordinate first second : Coordinate}

/-- Each segment of the path of a plain coordinate is one name. -/
theorem HasPlainFields.segment (plain : HasPlainFields coordinate) {piece : String}
    (member : piece ∈ segments coordinate) : '/' ∉ piece.toList ∧ piece ≠ "" := by
  have field {part : String} (inside : part ∈ coordinate.parts) := plain.fields part inside
  rw [segments, List.mem_append] at member
  rcases member with piece | member
  · exact ⟨fun slash => field (by simp [Coordinate.parts])
      (Text.subset_of_mem_splitText piece slash), plain.group _ piece⟩
  · simp only [List.mem_cons, List.not_mem_nil, or_false] at member
    rcases member with rfl | rfl | rfl
    · exact ⟨field (by simp [Coordinate.parts]), plain.artifact⟩
    · exact ⟨field (by simp [Coordinate.parts]), plain.version⟩
    · refine ⟨not_mem_fileName plain.fields, fun empty => ?_⟩
      have spelled := toList_fileName coordinate
      rw [empty, fileNameRest] at spelled
      simp at spelled

/-- **The names on the path of an artifact** are those of the root, and then its segments. -/
theorem names_pathOf (repository : LocalRepository) (plain : HasPlainFields coordinate) :
    (repository.pathOf coordinate).names = repository.root.names ++ segments coordinate := by
  rw [pathOf, FilePath.names_foldl fun piece member =>
    FilePath.isAbsolute_of_not_mem (plain.segment member).1]
  congr 1
  have each : (segments coordinate).map (fun piece => FilePath.names ⟨piece⟩) =
      (segments coordinate).map ([·]) :=
    List.map_congr_left fun piece member =>
      FilePath.names_of_not_mem (plain.segment member).1 (plain.segment member).2
  rw [List.flatMap_def, each, ← List.flatMap_def, List.flatMap_singleton']

/-- Behind an artifact id and a version that are known, the name of the file tells the classifier
and the kind: the classifier ends at the last point. -/
theorem fileNameRest_eq_iff (plain : '.' ∉ first.kind.toList) (plain' : '.' ∉ second.kind.toList)
    (version : first.version = second.version) :
    fileNameRest first = fileNameRest second ↔
      first.classifier = second.classifier ∧
        Text.asciiLowercase first.kind = Text.asciiLowercase second.kind := by
  have lower := mt (Text.mem_map_toLower_iff rfl).mp plain
  have lower' := mt (Text.mem_map_toLower_iff rfl).mp plain'
  rw [fileNameRest, fileNameRest, version, Text.append_cons_inj_of_not_mem lower lower',
    List.append_cancel_left_eq, Text.asciiLowercase, Text.asciiLowercase, String.ofList_inj]
  refine and_congr ?_ Iff.rfl
  cases first.classifier <;> cases second.classifier <;> simp [String.toList_inj]

/-- **Different artifacts never share a file.** Below any root, two plain coordinates have the same
path exactly if they are the same but for the case of their kinds. -/
theorem pathOf_eq_iff (repository : LocalRepository) (plain : HasPlainFields first)
    (plain' : HasPlainFields second) :
    (repository.pathOf first).text = (repository.pathOf second).text ↔
      first.group = second.group ∧ first.artifact = second.artifact ∧
      first.version = second.version ∧ first.classifier = second.classifier ∧
      Text.asciiLowercase first.kind = Text.asciiLowercase second.kind := by
  constructor
  · intro same
    have names : (repository.pathOf first).names = (repository.pathOf second).names :=
      congrArg (fun text => FilePath.names ⟨text⟩) same
    rw [names_pathOf repository plain, names_pathOf repository plain',
      List.append_cancel_left_eq, segments, segments] at names
    obtain ⟨pieces, own⟩ := List.append_inj' names rfl
    simp only [List.cons.injEq, and_true] at own
    obtain ⟨artifact, version, file⟩ := own
    have group : first.group = second.group := by
      rw [← Text.intercalate_splitText '.' first.group, pieces, Text.intercalate_splitText]
    have rest := congrArg String.toList file
    rw [toList_fileName, toList_fileName, artifact, List.append_cancel_left_eq,
      fileNameRest_eq_iff plain.kind plain'.kind version] at rest
    exact ⟨group, artifact, version, rest⟩
  · rintro ⟨group, artifact, version, classifier, kind⟩
    have file : fileName first = fileName second := by
      rw [fileName, fileName, artifact, version, classifier, kind]
    rw [pathOf, pathOf, segments, segments, group, artifact, version, file]

/-- A version with a hyphen, in a kind with a capital letter. -/
def hyphenVersion : Coordinate := ⟨"g.h", "a", "1-b", "Jar", none⟩

/-- A classifier that looks like the end of a version. -/
def hyphenClassifier : Coordinate := ⟨"g.h", "a", "1", "jar", some "b"⟩

/-- `hyphenVersion` and `hyphenClassifier` have files of one name, in different directories. -/
theorem pathOf_eq_iff_hyphens :
    HasPlainFields hyphenVersion ∧ HasPlainFields hyphenClassifier ∧
      fileName hyphenVersion = fileName hyphenClassifier ∧
      (pathOf ⟨⟨"/repo"⟩⟩ hyphenVersion).text ≠ (pathOf ⟨⟨"/repo"⟩⟩ hyphenClassifier).text ∧
      (pathOf ⟨⟨"/repo"⟩⟩ hyphenVersion).text =
        (pathOf ⟨⟨"/repo"⟩⟩ { hyphenVersion with kind := "jar" }).text := by
  have version : HasPlainFields hyphenVersion :=
    ⟨by decide, by decide, by decide, by decide, by decide⟩
  have lower : HasPlainFields { hyphenVersion with kind := "jar" } :=
    ⟨by decide, by decide, by decide, by decide, by decide⟩
  have classifier : HasPlainFields hyphenClassifier :=
    ⟨by decide, by decide, by decide, by decide, by decide⟩
  refine ⟨version, classifier, by decide, fun same => ?_,
    (pathOf_eq_iff _ version lower).mpr ⟨rfl, rfl, rfl, rfl, by decide⟩⟩
  obtain ⟨-, -, versions, -⟩ := (pathOf_eq_iff _ version classifier).mp same
  exact absurd versions (by decide)

-- With a point in the kind, the classifier cannot be told from it.
example : pathOf ⟨⟨"/repo"⟩⟩ ⟨"g", "a", "1", "c.d", some "b"⟩ =
    pathOf ⟨⟨"/repo"⟩⟩ ⟨"g", "a", "1", "d", some "b.c"⟩ := by
  decide

end LocalRepository

end ExtensionCatalog
