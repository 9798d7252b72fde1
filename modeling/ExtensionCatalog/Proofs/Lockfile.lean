/-
**What a lockfile is made of, and why it is refused.**

The artifacts of a lockfile are told apart by the coordinates that their texts are read as, and so
are the dependencies of one artifact. An artifact may be listed once only, while of several
dependencies with one coordinate the first one counts.

* `IsSound`: every coordinate can be read, and no artifact is listed twice;
* `FirstFault`: the first thing in the order of the document that is wrong with it;
* `IsFirstRecord`: the file of a coordinate among dependencies, by the first of them that has it;
* `add_eq_ok_iff`, `add_eq_error_iff`: one artifact more;
* `Holds`: what a lockfile answers, in terms of the artifacts it is made of;
* `ofArtifacts_answers`: **the artifacts that make a lockfile, the faults of others, and the
  answers**.
-/

import Mathlib.Data.List.Induction
import ExtensionCatalog.Lockfile
import ExtensionCatalog.Proofs.Coordinate
import ExtensionCatalog.Proofs.DependencySet
import ExtensionCatalog.Proofs.Outcome

namespace ExtensionCatalog

/-- The coordinate that the text of a dependency is read as. -/
def LockedDependency.coordinate? (dependency : LockedDependency) : Option Coordinate :=
  Coordinate.parse? dependency.coordinate

/-- The file of a dependency: none, or where it stands if it is relative to a base. -/
def LockedDependency.place? (base : FilePath) (dependency : LockedDependency) : Option FilePath :=
  dependency.file.map fun file => if file.isAbsolute then file else base.join file

/-- The coordinate that the text of an artifact is read as. -/
def LockedArtifact.coordinate? (artifact : LockedArtifact) : Option Coordinate :=
  Coordinate.parse? artifact.coordinate

namespace DependencyLockfile

open LockedDependency (locate)

/-- Whether artifacts can make a lockfile. -/
structure IsSound (artifacts : List LockedArtifact) : Prop where
  artifact : ∀ artifact ∈ artifacts, artifact.coordinate?.isSome
  dependency : ∀ artifact ∈ artifacts, ∀ dependency ∈ artifact.dependencies,
    dependency.coordinate?.isSome
  apart : artifacts.Pairwise fun first second => first.coordinate? ≠ second.coordinate?

/-- The first fault of a document, in the order in which it is written: a coordinate that cannot be
read, or an artifact whose coordinate one of those before it has. -/
inductive FirstFault (artifacts : List LockedArtifact) : Error → Prop
  | artifact {before after : List LockedArtifact} {artifact : LockedArtifact}
      (place : artifacts = before ++ artifact :: after) (sound : IsSound before)
      (unread : artifact.coordinate? = none) :
      FirstFault artifacts (.invalidCoordinate artifact.coordinate)
  | repeated {before after : List LockedArtifact} {artifact earlier : LockedArtifact}
      {coordinate : Coordinate} (place : artifacts = before ++ artifact :: after)
      (sound : IsSound before) (named : artifact.coordinate? = some coordinate)
      (listed : earlier ∈ before) (same : earlier.coordinate? = some coordinate) :
      FirstFault artifacts (.invalidLockfile s!"artifact {coordinate} is listed more than once")
  | dependency {before after : List LockedArtifact} {artifact : LockedArtifact}
      {first rest : List LockedDependency} {dependency : LockedDependency}
      (place : artifacts = before ++ artifact :: after) (sound : IsSound before)
      (named : artifact.coordinate?.isSome)
      (new : ∀ earlier ∈ before, earlier.coordinate? ≠ artifact.coordinate?)
      (within : artifact.dependencies = first ++ dependency :: rest)
      (read : ∀ earlier ∈ first, earlier.coordinate?.isSome)
      (unread : dependency.coordinate? = none) :
      FirstFault artifacts (.invalidCoordinate dependency.coordinate)

/-- Whether this is the file of the first dependency that has a coordinate. -/
def IsFirstRecord (base : FilePath) (dependencies : List LockedDependency)
    (coordinate : Coordinate) (file : Option FilePath) : Prop :=
  ∃ before dependency after, dependencies = before ++ dependency :: after ∧
    dependency.coordinate? = some coordinate ∧
    (∀ earlier ∈ before, earlier.coordinate? ≠ some coordinate) ∧
    file = dependency.place? base

section

variable {base : FilePath} {lockfile next : DependencyLockfile} {artifact : LockedArtifact}
  {artifacts : List LockedArtifact} {error : Error}

/-! ### Dependencies -/

theorem place?_eq (base : FilePath) (dependency : LockedDependency) :
    dependency.place? base = dependency.file.map base.join := by
  have joined : (fun file : FilePath => if file.isAbsolute then file else base.join file) =
      base.join := by
    funext file
    by_cases absolute : file.isAbsolute = true
    · rw [if_pos absolute, FilePath.join, if_pos absolute]
    · rw [if_neg absolute]
  rw [LockedDependency.place?, joined]

theorem locate_eq_ok_iff {dependency : LockedDependency} {record : Coordinate × Option FilePath} :
    locate base dependency = .ok record ↔
      dependency.coordinate? = some record.1 ∧ record.2 = dependency.place? base := by
  obtain ⟨coordinate, file⟩ := record
  rw [locate, Outcome.bind_eq_ok_iff, place?_eq, LockedDependency.coordinate?]
  simp only [Coordinate.parse_eq_ok_iff]
  constructor
  · rintro ⟨read, parsed, equal⟩
    cases equal
    exact ⟨parsed, rfl⟩
  · rintro ⟨parsed, rfl⟩
    exact ⟨coordinate, parsed, rfl⟩

theorem locate_eq_error_iff {dependency : LockedDependency} :
    locate base dependency = .error error ↔
      dependency.coordinate? = none ∧ error = .invalidCoordinate dependency.coordinate := by
  rw [locate, Outcome.bind_eq_error_iff, Coordinate.parse_eq_error_iff,
    LockedDependency.coordinate?]
  refine or_iff_left ?_
  rintro ⟨read, -, equal⟩
  cases equal

theorem isFirstRecord_cons_iff {dependency : LockedDependency} {rest : List LockedDependency}
    {coordinate : Coordinate} {file : Option FilePath} :
    IsFirstRecord base (dependency :: rest) coordinate file ↔
      dependency.coordinate? = some coordinate ∧ file = dependency.place? base ∨
      dependency.coordinate? ≠ some coordinate ∧ IsFirstRecord base rest coordinate file := by
  constructor
  · rintro ⟨_ | ⟨first, before⟩, here, after, place, named, earlier, rfl⟩
    · cases place
      exact .inl ⟨named, rfl⟩
    · cases place
      obtain ⟨other, others⟩ := List.forall_mem_cons.mp earlier
      exact .inr ⟨other, before, here, after, rfl, named, others, rfl⟩
  · rintro (⟨named, rfl⟩ | ⟨other, before, here, after, rfl, named, earlier, rfl⟩)
    · exact ⟨[], dependency, rest, rfl, named, by simp, rfl⟩
    · exact ⟨dependency :: before, here, after, rfl, named,
        List.forall_mem_cons.mpr ⟨other, earlier⟩, rfl⟩

/-- **Of several dependencies with one coordinate the first one counts.** -/
theorem find?_ofList_eq_some_iff {dependencies : List LockedDependency}
    {records : List (Coordinate × Option FilePath)} {coordinate : Coordinate}
    {file : Option FilePath} (located : dependencies.mapM (locate base) = .ok records) :
    (DependencySet.ofList records).find? coordinate = some file ↔
      IsFirstRecord base dependencies coordinate file := by
  rw [DependencySet.ofList, DependencySet.find?_insertAll, DependencySet.find?_empty,
    Option.none_or]
  have each := Outcome.mapM_eq_ok_iff.mp located
  clear located
  induction each with
  | nil => exact iff_of_false (fun equal => by cases equal) (by simp [IsFirstRecord])
  | @cons dependency record dependencies records here _ hypothesis =>
    obtain ⟨named, place⟩ := locate_eq_ok_iff.mp here
    have later : SortedMap.lookup coordinate records = some file ↔
        IsFirstRecord base dependencies coordinate file := hypothesis
    rw [isFirstRecord_cons_iff, ← later, SortedMap.lookup, named, ← place]
    simp only [Std.compare_eq_iff_eq, Option.some.injEq, ne_eq]
    by_cases same : coordinate = record.1
    · simp [same, eq_comm]
    · simp [same, Ne.symm same]

/-! ### One artifact more -/

theorem add_eq (base : FilePath) (lockfile : DependencyLockfile) (artifact : LockedArtifact) :
    add base lockfile artifact = Coordinate.parse artifact.coordinate >>= fun coordinate =>
      if lockfile.graphs.contains coordinate then
        .error (.invalidLockfile s!"artifact {coordinate} is listed more than once")
      else artifact.dependencies.mapM (locate base) >>= fun records =>
        .ok (lockfile.insert coordinate (.ofList records)) := rfl

/-- An artifact is recorded if it can be read and no other has its coordinate. -/
theorem add_eq_ok_iff : add base lockfile artifact = .ok next ↔
    ∃ coordinate records, artifact.coordinate? = some coordinate ∧
      lockfile.graphs.contains coordinate = false ∧
      artifact.dependencies.mapM (locate base) = .ok records ∧
      next = lockfile.insert coordinate (.ofList records) := by
  simp only [add_eq, Outcome.bind_eq_ok_iff, Coordinate.parse_eq_ok_iff,
    LockedArtifact.coordinate?]
  constructor
  · rintro ⟨coordinate, named, added⟩
    split at added
    · cases added
    · next new =>
      obtain ⟨records, located, equal⟩ := Outcome.bind_eq_ok_iff.mp added
      cases equal
      exact ⟨coordinate, records, named, by simpa using new, located, rfl⟩
  · rintro ⟨coordinate, records, named, new, located, rfl⟩
    refine ⟨coordinate, named, ?_⟩
    rw [if_neg (by simp [new])]
    exact Outcome.bind_eq_ok_iff.mpr ⟨records, located, rfl⟩

/-- What can be wrong with an artifact: its own coordinate comes first. -/
theorem add_eq_error_iff : add base lockfile artifact = .error error ↔
    (artifact.coordinate? = none ∧ error = .invalidCoordinate artifact.coordinate) ∨
    ∃ coordinate, artifact.coordinate? = some coordinate ∧
      (lockfile.graphs.contains coordinate = true ∧
          error = .invalidLockfile s!"artifact {coordinate} is listed more than once" ∨
        lockfile.graphs.contains coordinate = false ∧
          ∃ first dependency rest, artifact.dependencies = first ++ dependency :: rest ∧
            (∀ earlier ∈ first, earlier.coordinate?.isSome) ∧ dependency.coordinate? = none ∧
            error = .invalidCoordinate dependency.coordinate) := by
  have readable (first : List LockedDependency) :
      (∀ earlier ∈ first, ∃ record, locate base earlier = .ok record) ↔
        ∀ earlier ∈ first, earlier.coordinate?.isSome := by
    refine forall₂_congr fun earlier _ => ?_
    simp only [locate_eq_ok_iff, Prod.exists, exists_and_left, exists_eq, and_true,
      Option.isSome_iff_exists]
  rw [add_eq, Outcome.bind_eq_error_iff, Coordinate.parse_eq_error_iff]
  refine or_congr Iff.rfl (exists_congr fun coordinate => ?_)
  rw [Coordinate.parse_eq_ok_iff]
  refine and_congr Iff.rfl ?_
  cases lockfile.graphs.contains coordinate with
  | true =>
    simp only [if_true, Except.error.injEq, true_and, Bool.true_eq_false, false_and, or_false]
    exact eq_comm
  | false =>
    have recorded (records : List (Coordinate × Option FilePath)) :
        (.ok (lockfile.insert coordinate (.ofList records)) :
          Except Error DependencyLockfile) ≠ .error error := fun equal => by cases equal
    simp only [Bool.false_eq_true, if_false, false_and, false_or, true_and,
      Outcome.bind_eq_error_iff, recorded, and_false, exists_false, or_false,
      Outcome.mapM_eq_error_iff, readable, locate_eq_error_iff]

/-! ### All artifacts -/

/-- An artifact that can be read is sound with others if none of these has its coordinate. -/
theorem IsSound.append_singleton (sound : IsSound artifacts) (named : artifact.coordinate?.isSome)
    (readable : ∀ dependency ∈ artifact.dependencies, dependency.coordinate?.isSome)
    (new : ∀ earlier ∈ artifacts, earlier.coordinate? ≠ artifact.coordinate?) :
    IsSound (artifacts ++ [artifact]) where
  artifact := List.forall_mem_append.mpr
    ⟨sound.artifact, List.forall_mem_singleton.mpr named⟩
  dependency := List.forall_mem_append.mpr
    ⟨sound.dependency, List.forall_mem_singleton.mpr readable⟩
  apart := List.pairwise_append.mpr ⟨sound.apart, List.pairwise_singleton ..,
    fun earlier member => List.forall_mem_singleton.mpr (new earlier member)⟩

/-- What a lockfile answers, in terms of the artifacts that it is made of. -/
structure Holds (base : FilePath) (artifacts : List LockedArtifact)
    (lockfile : DependencyLockfile) : Prop where
  sound : IsSound artifacts
  listed : ∀ coordinate, (lockfile.graphs.find? coordinate).isSome ↔
    ∃ artifact ∈ artifacts, artifact.coordinate? = some coordinate
  recorded : ∀ artifact ∈ artifacts, ∀ coordinate, artifact.coordinate? = some coordinate →
    ∃ set, lockfile.graphs.find? coordinate = some set ∧ ∀ dependency file,
      set.find? dependency = some file ↔
        IsFirstRecord base artifact.dependencies dependency file

theorem holds_empty (base : FilePath) : Holds base [] ∅ where
  sound := ⟨by simp, by simp, .nil⟩
  listed coordinate := iff_of_false (fun there => by cases there) (by simp)
  recorded := by simp

theorem Holds.contains_eq_false_iff (holds : Holds base artifacts lockfile)
    {coordinate : Coordinate} : lockfile.graphs.contains coordinate = false ↔
      ∀ artifact ∈ artifacts, artifact.coordinate? ≠ some coordinate := by
  rw [SortedMap.contains, ← Bool.not_eq_true, holds.listed]
  simp

/-- **One artifact more**: it answers for itself, and the others answer as before. -/
theorem Holds.add (holds : Holds base artifacts lockfile)
    (added : DependencyLockfile.add base lockfile artifact = .ok next) :
    Holds base (artifacts ++ [artifact]) next := by
  obtain ⟨coordinate, records, named, absent, located, rfl⟩ := add_eq_ok_iff.mp added
  have new := holds.contains_eq_false_iff.mp absent
  have answers (asked : Coordinate) : (lockfile.insert coordinate (.ofList records)).graphs.find?
      asked = if asked = coordinate then some (.ofList records)
        else lockfile.graphs.find? asked := by
    simp only [insert, SortedMap.find?_insert, Std.compare_eq_iff_eq]
  refine ⟨?_, fun asked => ?_, List.forall_mem_append.mpr
    ⟨fun other member asked means => ?_, List.forall_mem_singleton.mpr fun asked means => ?_⟩⟩
  · refine holds.sound.append_singleton (by rw [named]; rfl) (fun dependency member => ?_)
      (by rwa [named])
    obtain ⟨record, here⟩ := Outcome.exists_of_mapM_eq_ok located member
    rw [(locate_eq_ok_iff.mp here).1]
    rfl
  · rw [answers]
    by_cases same : asked = coordinate
    · simp [same, named]
    · simp [same, holds.listed, named, Ne.symm same]
  · have different : asked ≠ coordinate := by
      rintro rfl
      exact new other member means
    rw [answers, if_neg different]
    exact holds.recorded other member asked means
  · cases Option.some.inj (named.symm.trans means)
    rw [answers, if_pos rfl]
    exact ⟨_, rfl, fun dependency file => find?_ofList_eq_some_iff located⟩

/-- **The lockfile of artifacts answers for these.** -/
theorem holds_of_ofArtifacts (made : ofArtifacts base artifacts = .ok lockfile) :
    Holds base artifacts lockfile := by
  induction artifacts using List.reverseRecOn generalizing lockfile with
  | nil =>
    cases made
    exact holds_empty base
  | append_singleton artifacts artifact hypothesis =>
    rw [ofArtifacts, List.foldlM_append] at made
    obtain ⟨before, earlier, last⟩ := Outcome.bind_eq_ok_iff.mp made
    rw [List.foldlM_cons] at last
    obtain ⟨next, added, equal⟩ := Outcome.bind_eq_ok_iff.mp last
    cases equal
    exact (hypothesis earlier).add added

/-! ### Faults -/

theorem firstFault_of_ofArtifacts (failed : ofArtifacts base artifacts = .error error) :
    FirstFault artifacts error := by
  obtain ⟨before, artifact, after, state, place, earlier, here⟩ :=
    Outcome.foldlM_eq_error_iff.mp failed
  have holds : Holds base before state := holds_of_ofArtifacts earlier
  rcases add_eq_error_iff.mp here with ⟨unread, rfl⟩ | ⟨coordinate, named, ⟨listed, rfl⟩ |
    ⟨absent, first, dependency, rest, within, read, unread, rfl⟩⟩
  · exact .artifact place holds.sound unread
  · obtain ⟨other, member, same⟩ := (holds.listed coordinate).mp listed
    exact .repeated place holds.sound named member same
  · refine .dependency place holds.sound (by rw [named]; rfl) ?_ within read unread
    rw [named]
    exact holds.contains_eq_false_iff.mp absent

/-- Artifacts with a fault are not sound. -/
theorem FirstFault.not_isSound (fault : FirstFault artifacts error) : ¬ IsSound artifacts := by
  intro whole
  cases fault with
  | @artifact before after artifact place sound unread =>
    have member : artifact ∈ artifacts := place ▸ List.mem_append_right before List.mem_cons_self
    have read := whole.artifact artifact member
    rw [unread] at read
    cases read
  | repeated place sound named listed same =>
    have apart := whole.apart
    rw [place, List.pairwise_append] at apart
    exact apart.2.2 _ listed _ List.mem_cons_self (same.trans named.symm)
  | @dependency before after artifact first rest dependency place sound named new within read
      unread =>
    have member : artifact ∈ artifacts := place ▸ List.mem_append_right before List.mem_cons_self
    have inside : dependency ∈ artifact.dependencies :=
      within ▸ List.mem_append_right first List.mem_cons_self
    have read := whole.dependency artifact member dependency inside
    rw [unread] at read
    cases read

/-- Sound artifacts make a lockfile. -/
theorem exists_ofArtifacts (base : FilePath) (sound : IsSound artifacts) :
    ∃ lockfile, ofArtifacts base artifacts = .ok lockfile := by
  refine (Outcome.ok_or_error _).resolve_right ?_
  rintro ⟨error, failed⟩
  exact (firstFault_of_ofArtifacts failed).not_isSound sound

/-- **A lockfile is refused for the first fault of its artifacts.** -/
theorem ofArtifacts_eq_error_iff :
    ofArtifacts base artifacts = .error error ↔ FirstFault artifacts error := by
  refine ⟨firstFault_of_ofArtifacts, fun fault => Outcome.foldlM_eq_error_iff.mpr ?_⟩
  cases fault with
  | artifact place sound unread =>
    obtain ⟨state, earlier⟩ := exists_ofArtifacts base sound
    exact ⟨_, _, _, state, place, earlier, add_eq_error_iff.mpr (.inl ⟨unread, rfl⟩)⟩
  | repeated place sound named listed same =>
    obtain ⟨state, earlier⟩ := exists_ofArtifacts base sound
    have there := ((holds_of_ofArtifacts earlier).listed _).mpr ⟨_, listed, same⟩
    exact ⟨_, _, _, state, place, earlier,
      add_eq_error_iff.mpr (.inr ⟨_, named, .inl ⟨there, rfl⟩⟩)⟩
  | dependency place sound named new within read unread =>
    obtain ⟨state, earlier⟩ := exists_ofArtifacts base sound
    obtain ⟨coordinate, named⟩ := Option.isSome_iff_exists.mp named
    rw [named] at new
    have absent := (holds_of_ofArtifacts earlier).contains_eq_false_iff.mpr new
    exact ⟨_, _, _, state, place, earlier, add_eq_error_iff.mpr
      (.inr ⟨coordinate, named, .inr ⟨absent, _, _, _, within, read, unread, rfl⟩⟩)⟩

/-- **What a lockfile is made of.** Artifacts make a lockfile if all coordinates can be read and
those of the artifacts differ; otherwise the first fault in their order counts. A lockfile answers
for each of its artifacts with the coordinates of its dependencies, each with the file that is
recorded for it first, and for nothing else. -/
theorem ofArtifacts_answers (base : FilePath) (artifacts : List LockedArtifact) :
    ((∃ lockfile, ofArtifacts base artifacts = .ok lockfile) ↔ IsSound artifacts) ∧
    (∀ error, ofArtifacts base artifacts = .error error ↔ FirstFault artifacts error) ∧
    (∀ lockfile, ofArtifacts base artifacts = .ok lockfile → ∀ coordinate,
      (∀ artifact ∈ artifacts, artifact.coordinate? = some coordinate →
        ∃ set, lockfile.dependencies coordinate = .ok set ∧ ∀ dependency file,
          set.find? dependency = some file ↔
            IsFirstRecord base artifact.dependencies dependency file) ∧
      ((∀ artifact ∈ artifacts, artifact.coordinate? ≠ some coordinate) →
        lockfile.dependencies coordinate = .error (.dependencyGraphBuildFailed coordinate
          "artifact is not listed in the lockfile"))) ∧
    ∀ text, Toml.parse? text >>= LockedArtifact.listOfDocument? = some artifacts →
      parse text base = ofArtifacts base artifacts := by
  refine ⟨⟨?_, exists_ofArtifacts base⟩, fun error => ofArtifacts_eq_error_iff,
    fun lockfile made coordinate => ⟨fun artifact member named => ?_, fun other => ?_⟩,
    fun text read => ?_⟩
  · rintro ⟨lockfile, made⟩
    exact (holds_of_ofArtifacts made).sound
  · obtain ⟨set, found, records⟩ :=
      (holds_of_ofArtifacts made).recorded artifact member coordinate named
    exact ⟨set, by rw [dependencies, found], records⟩
  · have absent := (holds_of_ofArtifacts made).contains_eq_false_iff.mpr other
    rw [SortedMap.contains, Option.isSome_eq_false_iff, Option.isNone_iff_eq_none] at absent
    rw [dependencies, absent]
  · rw [parse, read]

end

/-- Two artifacts; the first one depends twice on one coordinate, in two spellings. -/
def twoArtifacts : List LockedArtifact :=
  [⟨"g:a:1", [⟨"g:b:1", some ⟨"classes"⟩⟩, ⟨"g:b:jar:1", none⟩]⟩, ⟨"g:c:nar:1", []⟩]

/-- The document that lists `twoArtifacts`. -/
def twoArtifactsText : String :=
  "[[artifact]]\ncoordinate = \"g:a:1\"\n" ++
  "[[artifact.dependencies]]\ncoordinate = \"g:b:1\"\nfile = \"classes\"\n" ++
  "[[artifact.dependencies]]\ncoordinate = \"g:b:jar:1\"\n" ++
  "[[artifact]]\ncoordinate = \"g:c:nar:1\"\n"

/-- What the lockfile of `twoArtifacts` answers. -/
theorem ofArtifacts_answers_twoArtifacts :
    Toml.parse? twoArtifactsText >>= LockedArtifact.listOfDocument? = some twoArtifacts ∧
    parse twoArtifactsText ⟨"/work"⟩ = ofArtifacts ⟨"/work"⟩ twoArtifacts ∧
    ∃ lockfile, ofArtifacts ⟨"/work"⟩ twoArtifacts = .ok lockfile ∧
      (∃ set, lockfile.dependencies (.jar "g" "a" "1") = .ok set ∧
        set.find? (.jar "g" "b" "1") = some (some ⟨"/work/classes"⟩)) ∧
      lockfile.dependencies (.jar "g" "c" "1") = .error (.dependencyGraphBuildFailed
        (.jar "g" "c" "1") "artifact is not listed in the lockfile") := by
  have answers := ofArtifacts_answers ⟨"/work"⟩ twoArtifacts
  have listed : Toml.parse? twoArtifactsText >>= LockedArtifact.listOfDocument? =
      some twoArtifacts := by
    decide +kernel
  have sound : IsSound twoArtifacts := ⟨by decide, by decide, by decide⟩
  obtain ⟨lockfile, made⟩ := answers.1.mpr sound
  obtain ⟨set, found, records⟩ :=
    (answers.2.2.1 lockfile made (.jar "g" "a" "1")).1 _ List.mem_cons_self (by decide)
  refine ⟨listed, answers.2.2.2 _ listed, lockfile, made, ⟨set, found, ?_⟩,
    (answers.2.2.1 lockfile made (.jar "g" "c" "1")).2 (by decide)⟩
  exact (records _ _).mpr ⟨[], _, _, rfl, by decide, by simp, by decide⟩

end DependencyLockfile

end ExtensionCatalog
