/-
**What changes to a file tree leave as it is.**

Changes only add to a tree: a directory stays one, and something that stands somewhere is at most
replaced by another file. So a path that leads somewhere leads there after any changes, and a file
lasts as long as nothing else is written where it stands.

* `FilePath.exists_lastSegment`: the last segment of a path ends like the path;
* `Keeps`, `Grows`: two ways in which a tree has what another one has;
* `keeps_makeDirectories`, `grows_write`, `grows_applyAll`: what changes do;
* `walk_of_grows`, `locate?_of_grows`: **paths lead where they led**;
* `HasFile`: where a path leads stands a file with some content;
* `WritesOnly`: nothing else is written under the name of a path;
* `hasFile_write`, `HasFile.apply`: a file that is written is there, and lasts;
* `hasFile_applyAll`: **what is written under one name only is there afterwards**.
-/

import ExtensionCatalog.FileTree
import Mathlib.Tactic.SplitIfs

namespace ExtensionCatalog

/-! ### The last segment of a path -/

/-- Parts that are joined end like the last of them, unless they end in a separator. -/
theorem Text.exists_last_join {separator c : Char} {parts : List (List Char)}
    (ends : (join separator parts).getLast? = some c) (different : c ≠ separator) :
    ∃ part, parts.getLast? = some part ∧ part.getLast? = some c := by
  induction parts with
  | nil => cases ends
  | cons first rest hypothesis =>
    cases rest with
    | nil => exact ⟨first, rfl, ends⟩
    | cons next more =>
      change (first ++ separator :: join separator (next :: more)).getLast? = some c at ends
      rw [List.getLast?_append, List.getLast?_cons, Option.some_or, Option.some.injEq] at ends
      cases last : (join separator (next :: more)).getLast? with
      | none =>
        rw [last, Option.getD_none] at ends
        exact absurd ends.symm different
      | some c' =>
        rw [last, Option.getD_some] at ends
        exact hypothesis (by rw [last, ends])

/-- The last segment of a path, under which a file of the path is written. -/
def FilePath.lastSegment? (path : FilePath) : Option String := path.segments.getLast?

theorem FilePath.exists_lastSegment {path : FilePath} {c : Char}
    (ends : path.text.toList.getLast? = some c) (different : c ≠ '/') :
    ∃ name, path.lastSegment? = some name ∧ name.toList.getLast? = some c := by
  rw [← Text.join_split '/' path.text.toList] at ends
  obtain ⟨part, last, partEnds⟩ := Text.exists_last_join ends different
  refine ⟨String.ofList part, ?_, by rw [String.toList_ofList, partEnds]⟩
  rw [FilePath.lastSegment?, segments, Text.splitText, List.getLast?_map, last]
  rfl

/-- Paths that end in different characters have different last segments. -/
theorem FilePath.eq_of_lastSegment {path other : FilePath} {c c' : Char}
    (ends : path.text.toList.getLast? = some c) (different : c ≠ '/')
    (ends' : other.text.toList.getLast? = some c') (different' : c' ≠ '/')
    (same : other.lastSegment? = path.lastSegment?) : c' = c := by
  obtain ⟨name, last, nameEnds⟩ := exists_lastSegment ends different
  obtain ⟨name', last', nameEnds'⟩ := exists_lastSegment ends' different'
  rw [last, last', Option.some.injEq] at same
  rw [same, nameEnds, Option.some.injEq] at nameEnds'
  exact nameEnds'.symm

namespace FileTree

/-- Whatever stands in a tree stands in another one, unchanged. -/
structure Keeps (before after : FileTree) : Prop where
  start : after.workingDirectory = before.workingDirectory
  entry : ∀ location entry, before.entryAt? location = some entry →
    after.entryAt? location = some entry

/-- Wherever something stands in a tree something stands in another one, and its directories are
directories there. -/
structure Grows (before after : FileTree) : Prop where
  start : after.workingDirectory = before.workingDirectory
  directory : ∀ location, before.entryAt? location = some .directory →
    after.entryAt? location = some .directory
  present : ∀ location, (before.entryAt? location).isSome → (after.entryAt? location).isSome

variable {tree before after later : FileTree}

theorem Keeps.refl (tree : FileTree) : Keeps tree tree := ⟨rfl, fun _ _ there => there⟩

theorem Keeps.trans (first : Keeps before after) (second : Keeps after later) :
    Keeps before later :=
  ⟨second.start.trans first.start,
    fun location entry there => second.entry location entry (first.entry location entry there)⟩

theorem Keeps.grows (keeps : Keeps before after) : Grows before after where
  start := keeps.start
  directory := fun location => keeps.entry location .directory
  present := fun location there => by
    obtain ⟨entry, found⟩ := Option.isSome_iff_exists.mp there
    rw [keeps.entry location entry found]
    rfl

theorem Grows.refl (tree : FileTree) : Grows tree tree := (Keeps.refl tree).grows

theorem Grows.trans (first : Grows before after) (second : Grows after later) :
    Grows before later :=
  ⟨second.start.trans first.start,
    fun location there => second.directory location (first.directory location there),
    fun location there => second.present location (first.present location there)⟩

/-! ### One entry -/

/-- The tree with an entry put at a location. -/
def put (tree : FileTree) (location : Location) (entry : FileEntry) : FileTree :=
  { tree with entries := tree.entries.insert location entry }

theorem entryAt?_put {location : Location} (below : location ≠ []) (entry : FileEntry)
    (other : Location) : (tree.put location entry).entryAt? other =
      if other = location then some entry else tree.entryAt? other := by
  unfold entryAt? put
  by_cases root : other = []
  · have apart : other ≠ location := by
      rintro rfl
      exact below root
    rw [if_pos root, if_neg apart, if_pos root]
  · simp only [root, if_false, SortedMap.find?_insert, Std.compare_eq_iff_eq]

/-- An entry put where nothing stands changes nothing else. -/
theorem keeps_put {location : Location} (free : tree.entryAt? location = none)
    (entry : FileEntry) : Keeps tree (tree.put location entry) := by
  have below : location ≠ [] := by
    rintro rfl
    cases free
  refine ⟨rfl, fun other found there => ?_⟩
  have apart : other ≠ location := by
    rintro rfl
    rw [free] at there
    cases there
  rw [entryAt?_put below, if_neg apart, there]

/-- A file may take the place of another one. -/
theorem grows_put {location : Location} (below : location ≠ [])
    (plain : tree.entryAt? location ≠ some .directory) (content : Bytes) :
    Grows tree (tree.put location (.file content)) := by
  refine ⟨rfl, fun other there => ?_, fun other there => ?_⟩
  · have apart : other ≠ location := by
      rintro rfl
      exact plain there
    rw [entryAt?_put below, if_neg apart, there]
  · rw [entryAt?_put below]
    split
    · rfl
    · exact there

/-! ### Directories -/

theorem keeps_makeAlong (segments : List String) (here : Location) (tree : FileTree) :
    Keeps tree (makeAlong segments here tree).1 := by
  induction segments generalizing here tree with
  | nil => exact .refl tree
  | cons segment rest hypothesis =>
    unfold makeAlong
    split
    · split
      · exact hypothesis here tree
      · split
        · exact hypothesis here.dropLast tree
        · dsimp only
          split
          · exact hypothesis (here ++ [segment]) tree
          · next free =>
            split
            · exact (keeps_put free .directory).trans (hypothesis _ _)
            · exact .refl tree
    · exact .refl tree

theorem keeps_makeDirectory (tree : FileTree) (path : FilePath) :
    Keeps tree (tree.makeDirectory path).1 := by
  unfold makeDirectory
  split
  · exact .refl tree
  · split
    · exact .refl tree
    · split
      · exact .refl tree
      · next free => exact keeps_put (by simpa using free) .directory

theorem keeps_makeDirectories (tree : FileTree) (path : FilePath) :
    Keeps tree (tree.makeDirectories path).1 := by
  unfold makeDirectories
  split
  · exact .refl tree
  · split
    · split
      · exact .refl tree
      · next above _ =>
        have along := keeps_makeAlong above.segments (tree.start path) tree
        dsimp only
        split
        · exact along.trans (keeps_makeDirectory _ path)
        · exact along
    · exact .refl tree

/-! ### Files -/

/-- Where a file is written: below a directory that the path leads to, under its last segment. -/
theorem destination?_eq_some {path : FilePath} {location : Location}
    (found : tree.destination? path = some location) : ∃ above name here,
      path.segments = above ++ [name] ∧ isLookupPath path ∧ isName name ∧
      tree.walk above (tree.start path) = some here ∧
      tree.entryAt? here = some .directory ∧ location = here ++ [name] := by
  unfold destination? at found
  split at found
  · cases found
  · next name above reversed =>
    split at found
    · next fits =>
      rw [Bool.and_eq_true] at fits
      obtain ⟨here, leads, there⟩ := Option.bind_eq_some_iff.mp found
      split at there
      · next stands =>
        cases there
        refine ⟨above.reverse, name, here, ?_, fits.1, fits.2, leads, stands, rfl⟩
        rw [← List.reverse_cons, ← reversed, List.reverse_reverse]
      · cases there
    · cases found

/-- A file is put at its destination, or nothing changes. -/
theorem write_cases (tree : FileTree) (path : FilePath) (content : Bytes) :
    tree.write path content = (tree, false) ∨ ∃ location,
      tree.destination? path = some location ∧ tree.entryAt? location ≠ some .directory ∧
        tree.write path content = (tree.put location (.file content), true) := by
  unfold write
  split
  · exact .inl rfl
  · next location found =>
    split
    · exact .inl rfl
    · next plain => exact .inr ⟨location, found, plain, rfl⟩

theorem grows_write (tree : FileTree) (path : FilePath) (content : Bytes) :
    Grows tree (tree.write path content).1 := by
  rcases tree.write_cases path content with nothing | ⟨location, found, plain, written⟩
  · rw [nothing]
    exact .refl tree
  · obtain ⟨above, name, here, -, -, -, -, -, rfl⟩ := destination?_eq_some found
    rw [written]
    exact grows_put (by simp) plain content

theorem grows_apply (tree : FileTree) (change : Change) : Grows tree (tree.apply change).1 := by
  cases change with
  | makeDirectories path => exact (keeps_makeDirectories tree path).grows
  | write path content => exact grows_write tree path content

/-- **Changes only add to a tree.** -/
theorem grows_applyAll (changes : List Change) (tree : FileTree) :
    Grows tree (tree.applyAll changes).1 := by
  induction changes generalizing tree with
  | nil => exact .refl tree
  | cons change rest hypothesis =>
    unfold applyAll
    dsimp only
    split
    · exact (grows_apply tree change).trans (hypothesis _)
    · exact grows_apply tree change

/-! ### Paths -/

/-- **A path leads where it led.** -/
theorem walk_of_grows (grows : Grows before after) {segments : List String}
    {here location : Location} (leads : before.walk segments here = some location) :
    after.walk segments here = some location := by
  induction segments generalizing here with
  | nil => exact leads
  | cons segment rest hypothesis =>
    unfold walk at leads ⊢
    split at leads
    · next stands =>
      rw [if_pos (grows.directory here stands)]
      split at leads
      · next idle =>
        rw [if_pos idle]
        exact hypothesis leads
      · next moving =>
        rw [if_neg moving]
        split at leads
        · next up =>
          rw [if_pos up]
          exact hypothesis leads
        · next down =>
          rw [if_neg down]
          split at leads
          · next there =>
            rw [if_pos (grows.present _ there)]
            exact hypothesis leads
          · cases leads
    · cases leads

theorem locate?_of_grows (grows : Grows before after) {path : FilePath} {location : Location}
    (leads : before.locate? path = some location) : after.locate? path = some location := by
  unfold locate? at leads ⊢
  split at leads
  · next fits =>
    have begins : after.start path = before.start path := by
      unfold start
      rw [grows.start]
    rw [if_pos fits, begins]
    exact walk_of_grows grows leads
  · cases leads

theorem walk_append (tree : FileTree) (first second : List String) (here : Location) :
    tree.walk (first ++ second) here = (tree.walk first here).bind (tree.walk second) := by
  induction first generalizing here with
  | nil => rfl
  | cons segment rest hypothesis =>
    rw [List.cons_append, walk, walk]
    split_ifs
    · exact hypothesis here
    · exact hypothesis here.dropLast
    · exact hypothesis (here ++ [segment])
    · rfl
    · rfl

/-- A name leads down. -/
theorem walk_name {here : Location} {name : String} (named : isName name = true)
    (directory : tree.entryAt? here = some .directory)
    (there : (tree.entryAt? (here ++ [name])).isSome) :
    tree.walk [name] here = some (here ++ [name]) := by
  simp only [isName, Bool.and_eq_true, bne_iff_ne] at named
  obtain ⟨⟨⟨nonempty, notHere⟩, notUp⟩, -⟩ := named
  have moving : ¬ FilePath.isIdle name = true := by simp [FilePath.isIdle, nonempty, notHere]
  rw [walk, if_pos directory, if_neg moving, if_neg notUp, if_pos there, walk]

/-! ### Files that last -/

/-- Where a path leads stands a file with a content, under the last segment of the path. -/
def HasFile (tree : FileTree) (path : FilePath) (content : Bytes) : Prop :=
  ∃ location, tree.locate? path = some location ∧
    tree.entryAt? location = some (.file content) ∧ location.getLast? = path.lastSegment?

/-- What some changes write under the name of a path is one content. -/
def WritesOnly (changes : List Change) (path : FilePath) (content : Bytes) : Prop :=
  ∀ other content', .write other content' ∈ changes →
    other.lastSegment? = path.lastSegment? → content' = content

theorem writesOnly_cons {change : Change} {rest : List Change} {path : FilePath}
    {content : Bytes} : WritesOnly (change :: rest) path content ↔
      WritesOnly [change] path content ∧ WritesOnly rest path content := by
  simp only [WritesOnly, List.mem_cons, List.not_mem_nil, or_false, or_imp, forall_and]

theorem HasFile.read? {path : FilePath} {content : Bytes} (there : tree.HasFile path content) :
    tree.read? path = some content := by
  obtain ⟨location, leads, stands, -⟩ := there
  have found : tree.entry? path = some (.file content) :=
    Option.bind_eq_some_iff.mpr ⟨location, leads, stands⟩
  rw [FileTree.read?, found]

/-- **A file that is written is there.** -/
theorem hasFile_write {path : FilePath} {content : Bytes}
    (possible : (tree.write path content).2 = true) :
    (tree.write path content).1.HasFile path content := by
  have grows := grows_write tree path content
  rcases tree.write_cases path content with nothing | ⟨location, found, -, written⟩
  · rw [nothing] at possible
    cases possible
  · obtain ⟨above, name, here, segments, fits, named, leads, directory, rfl⟩ :=
      destination?_eq_some found
    rw [written] at grows ⊢
    have stands : (tree.put (here ++ [name]) (.file content)).entryAt? (here ++ [name]) =
        some (.file content) := by
      rw [entryAt?_put (by simp), if_pos rfl]
    refine ⟨here ++ [name], ?_, stands, ?_⟩
    · rw [locate?, if_pos fits, segments, walk_append]
      refine Option.bind_eq_some_iff.mpr ⟨here, walk_of_grows grows leads, ?_⟩
      refine walk_name named (grows.directory here directory) ?_
      exact Option.isSome_iff_exists.mpr ⟨_, stands⟩
    · rw [FilePath.lastSegment?, segments, List.getLast?_concat, List.getLast?_concat]

/-- **A file lasts** if nothing else is written under its name. -/
theorem HasFile.apply {path : FilePath} {content : Bytes} (there : tree.HasFile path content)
    {change : Change} (only : WritesOnly [change] path content) :
    (tree.apply change).1.HasFile path content := by
  obtain ⟨location, leads, stands, last⟩ := there
  refine ⟨location, locate?_of_grows (grows_apply tree change) leads, ?_, last⟩
  cases change with
  | makeDirectories other => exact (keeps_makeDirectories tree other).entry _ _ stands
  | write other content' =>
    change (tree.write other content').1.entryAt? location = _
    rcases tree.write_cases other content' with nothing | ⟨location', found, -, written⟩
    · rw [nothing]
      exact stands
    · obtain ⟨above, name, here, segments, -, -, -, -, rfl⟩ := destination?_eq_some found
      rw [written, entryAt?_put (by simp)]
      split
      · next same =>
        -- It stands where the other file is written, so both have one name.
        have named : other.lastSegment? = path.lastSegment? := by
          rw [← last, same, FilePath.lastSegment?, segments, List.getLast?_concat,
            List.getLast?_concat]
        rw [only other content' (List.mem_singleton_self _) named]
      · exact stands

theorem HasFile.applyAll {path : FilePath} {content : Bytes} {changes : List Change}
    (there : tree.HasFile path content) (only : WritesOnly changes path content) :
    (tree.applyAll changes).1.HasFile path content := by
  induction changes generalizing tree with
  | nil => exact there
  | cons change rest hypothesis =>
    obtain ⟨here, later⟩ := writesOnly_cons.mp only
    have now := there.apply here
    unfold FileTree.applyAll
    dsimp only
    split
    · exact hypothesis now later
    · exact now

/-- **What is written under one name only is there afterwards.** -/
theorem hasFile_applyAll {path : FilePath} {content : Bytes} {changes : List Change}
    (possible : (tree.applyAll changes).2 = true) (member : .write path content ∈ changes)
    (only : WritesOnly changes path content) :
    (tree.applyAll changes).1.HasFile path content := by
  induction changes generalizing tree with
  | nil => cases member
  | cons change rest hypothesis =>
    have later := (writesOnly_cons.mp only).2
    unfold FileTree.applyAll at possible ⊢
    dsimp only at possible ⊢
    split at possible
    · next made =>
      rw [if_pos made]
      rcases List.mem_cons.mp member with rfl | further
      · exact (hasFile_write made).applyAll later
      · exact hypothesis possible further later
    · cases possible

/-- Changes in two parts. -/
theorem applyAll_append (tree : FileTree) {first : List Change}
    (possible : (tree.applyAll first).2 = true) (second : List Change) :
    tree.applyAll (first ++ second) = (tree.applyAll first).1.applyAll second := by
  induction first generalizing tree with
  | nil => rfl
  | cons change rest hypothesis =>
    unfold FileTree.applyAll at possible
    dsimp only at possible
    split at possible
    · next made =>
      rw [List.cons_append, FileTree.applyAll, FileTree.applyAll]
      dsimp only
      rw [if_pos made, if_pos made]
      exact hypothesis _ possible
    · cases possible

end FileTree

end ExtensionCatalog
