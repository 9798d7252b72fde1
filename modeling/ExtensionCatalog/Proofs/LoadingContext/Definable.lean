/-
**The types that a context can define.**

A context reads classes from files of its tree and from members of archives in it. There are
finitely many of these, and a class file declares one name, so there is a list of all types that a
context can ever come across.

* `FileTree.mem_contents_of_entry?`, `Archive.mem_contents_of_read?`: what is read is listed;
* `mem_storedContents_of_read`: what an entry yields is stored in the tree;
* `key_mem_definableTypes`: **every class that a context loads is of a definable type**.
-/

import ExtensionCatalog.LoadingContext.Assignable
import ExtensionCatalog.Proofs.LoadingContext.Identity

namespace ExtensionCatalog

/-- What a path leads to is one of the contents of the tree. -/
theorem FileTree.mem_contents_of_entry? {tree : FileTree} {path : FilePath} {content : Bytes}
    (found : tree.entry? path = some (.file content)) : content ∈ tree.contents := by
  unfold FileTree.entry? at found
  obtain ⟨location, -, there⟩ := Option.bind_eq_some_iff.mp found
  unfold FileTree.entryAt? at there
  by_cases top : location = []
  · rw [if_pos top] at there
    cases there
  · rw [if_neg top] at there
    have pair := (SortedMap.find?_eq_some_iff _ _ _).mp there
    have value : FileEntry.file content ∈ tree.entries.values := List.mem_map.mpr ⟨_, pair, rfl⟩
    exact List.mem_filterMap.mpr ⟨_, value, rfl⟩

theorem FileTree.read?_eq_some_iff {tree : FileTree} {path : FilePath} {content : Bytes} :
    tree.read? path = some content ↔ tree.entry? path = some (.file content) := by
  unfold FileTree.read?
  rcases tree.entry? path with _ | _ | other <;> simp

/-- What an archive has under a name is one of the contents of its members. -/
theorem Archive.mem_contents_of_read? {archive content : Bytes} {name : String}
    (found : Archive.read? archive name = .ok (some content)) :
    content ∈ Archive.contents archive := by
  unfold Archive.read? at found
  unfold Archive.contents
  cases listed : readDirectory archive with
  | error fault => simp [listed] at found
  | ok members =>
    simp only [listed] at found
    cases chosen : members.reverse.find? (·.name == name) with
    | none => simp [chosen] at found
    | some member =>
      have inside : member ∈ members := List.mem_reverse.mp (List.mem_of_find?_eq_some chosen)
      have restored : member.content? archive = .ok content := by
        rw [chosen] at found
        cases outcome : member.content? archive <;> simp_all [Except.map]
      exact List.mem_filterMap.mpr ⟨member, inside, by rw [restored]; rfl⟩

/-- An archive that cannot be read yields nothing. -/
theorem ClassPathEntry.readArchive_eq_some {path : FilePath} {archive content : Bytes}
    {name : String} (read : (readArchive path archive name).outcome = .ok (some content)) :
    Archive.read? archive name = .ok (some content) := by
  unfold readArchive at read
  split at read
  · next found =>
    cases read
    exact found
  all_goals cases read

/-- The contents of the files of a tree and of the members of those that are archives. -/
def FileTree.storedContents (tree : FileTree) : List Bytes :=
  tree.contents.flatMap fun content => content :: Archive.contents content

/-- What an entry yields is stored in the tree. -/
theorem mem_storedContents_of_read {tree : FileTree} {entry : ClassPathEntry} {name : String}
    {content : Bytes} (read : (entry.read tree name).outcome = .ok (some content)) :
    content ∈ tree.storedContents := by
  unfold FileTree.storedContents
  rw [List.mem_flatMap]
  cases entry with
  | directory root =>
    have found : tree.read? (ClassPathEntry.below root name) = some content := by
      simpa [ClassPathEntry.read] using read
    have file := FileTree.mem_contents_of_entry? (FileTree.read?_eq_some_iff.mp found)
    exact ⟨content, file, List.mem_cons_self⟩
  | archive path =>
    rw [ClassPathEntry.read] at read
    split at read
    · next archive there =>
      have member := Archive.mem_contents_of_read? (ClassPathEntry.readArchive_eq_some read)
      exact ⟨archive, FileTree.mem_contents_of_entry? there, List.mem_cons_of_mem _ member⟩
    all_goals cases read

namespace LoadingContext

variable {tree : FileTree} {context : LoadingContext} {name : String} {loaded : LoadedClass}

/-- **Every class that a context loads is of a definable type.** -/
theorem key_mem_definableTypes (found : (context.load tree name).outcome = .ok loaded) :
    loaded.key ∈ context.definableTypes tree := by
  obtain ⟨resource, first, defined⟩ := load_eq_ok_iff.mp found
  obtain ⟨parsed, -, level⟩ := define_eq_ok_iff.mp defined
  obtain ⟨source, read⟩ := read_of_firstResource first
  obtain ⟨ancestor, above, same, -⟩ := mem_sources.mp source
  unfold definableTypes
  rw [List.mem_flatMap]
  refine ⟨ancestor.level, List.mem_map.mpr ⟨ancestor, above, rfl⟩, ?_⟩
  refine List.mem_map.mpr ⟨loaded.name, ?_, ?_⟩
  · exact List.mem_filterMap.mpr
      ⟨resource.content, mem_storedContents_of_read read, by rw [parsed]; rfl⟩
  · show (ancestor.level.id, loaded.name) = (loaded.definedBy, loaded.name)
    rw [level, same]

end LoadingContext

end ExtensionCatalog
