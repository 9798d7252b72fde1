/-
**What changes to a file tree reach.**

A change touches the file that its path leads to, or makes directories that its path leads past.
Everything else stands as it stood, also when a change in the middle is not possible and the later
ones are not made.

* `FilePath.segments_join`: the segments of a path with a relative one joined to it;
* `FilePath.segments_of_parent?`, `FilePath.closed_segments`: shorter paths go along a path;
* `place?`, `place?_join`: where a path leads, and where a relative one below it does;
* `eq_append_filter_of_walk`, `place?_foldl_joinText`: names lead down;
* `Passes`: a path leads past a location, or to it;
* `touched_makeAlong`, `touched_makeDirectories`: **directories are only made on the way**;
* `Touches`, `touches_write`: a file is only put where its path leads;
* `touches_applyAll`: **changes in a row touch nothing else**.
-/

import ExtensionCatalog.Proofs.FileTree.Changes

namespace ExtensionCatalog

/-! ### Segments -/

namespace FilePath

variable {path : FilePath} {name : String}

/-- No segment holds a slash. -/
theorem not_mem_of_mem_segments {segment : String} (member : segment ∈ path.segments) :
    '/' ∉ segment.toList :=
  Text.not_mem_of_mem_splitText member

theorem isAbsolute_of_not_mem (plain : '/' ∉ name.toList) : isAbsolute ⟨name⟩ = false := by
  rw [isAbsolute, beq_eq_false_iff_ne]
  exact fun first => plain (List.mem_of_head? first)

theorem segments_of_not_mem (plain : '/' ∉ name.toList) : segments ⟨name⟩ = [name] :=
  Text.splitText_of_not_mem plain

/-- **The segments of a relative path joined to a path** follow those of the path, the last of
which is left out if it is empty. -/
theorem segments_join (path : FilePath) {below : FilePath} (relative : below.isAbsolute = false) :
    ∃ base, (path.join below).segments = base ++ below.segments ∧
      (path.segments = base ∨ path.segments = base ++ [""]) := by
  obtain ⟨text⟩ := path
  have behind (first : List Char) :
      Text.splitText '/' (String.ofList (first ++ '/' :: below.text.toList)) =
        Text.splitText '/' (String.ofList first) ++ below.segments := by
    rw [Text.splitText_append_cons, String.ofList_toList, segments]
  unfold join
  rw [relative, if_neg Bool.false_ne_true]
  split
  · next opened =>
    unfold isOpen at opened
    split at opened
    · next nothing =>
      have empty : text = "" := by
        rw [← String.toList_inj, List.getLast?_eq_none_iff.mp nothing]
        rfl
      refine ⟨[], ?_, .inr (by rw [empty]; rfl)⟩
      simp only [segments, empty, String.empty_append, List.nil_append]
    · next last ends =>
      obtain ⟨front, whole⟩ := List.getLast?_eq_some_iff.mp ends
      rw [beq_iff_eq.mp opened] at whole
      have same : text = String.ofList (front ++ ['/']) := by rw [← whole, String.ofList_toList]
      refine ⟨Text.splitText '/' (String.ofList front), ?_, .inr ?_⟩
      · have grown : text ++ below.text = String.ofList (front ++ '/' :: below.text.toList) := by
          rw [← String.toList_inj, same]
          simp [String.toList_append]
        rw [← behind, segments, grown]
      · rw [segments, same, Text.splitText_append_cons]
        rfl
  · refine ⟨Text.splitText '/' text, ?_, .inl rfl⟩
    have same : text ++ "/" ++ below.text =
        String.ofList (text.toList ++ '/' :: below.text.toList) := by
      rw [← String.toList_inj]
      simp [String.toList_append]
    rw [segments, same, behind, String.ofList_toList]

/-- A joined path is absolute if one of the two is. -/
theorem isAbsolute_join (path below : FilePath) :
    (path.join below).isAbsolute = (path.isAbsolute || below.isAbsolute) := by
  cases relative : below.isAbsolute with
  | true => rw [join, if_pos relative, relative, Bool.or_true]
  | false =>
    rw [join, relative, if_neg Bool.false_ne_true, Bool.or_false]
    unfold isAbsolute at relative ⊢
    cases characters : path.text.toList with
    | nil =>
      have opened : path.isOpen = true := by rw [isOpen, characters]; rfl
      rw [if_pos opened]
      simpa [String.toList_append, characters] using relative
    | cons c more => split <;> simp [String.toList_append, characters]

/-- **A name below a path is the last segment.** -/
theorem segments_joinText (path : FilePath) (plain : '/' ∉ name.toList) :
    ∃ base, (path.joinText name).segments = base ++ [name] ∧
      (path.segments = base ∨ path.segments = base ++ [""]) := by
  rw [← segments_of_not_mem plain]
  exact path.segments_join (isAbsolute_of_not_mem plain)

theorem isAbsolute_joinText (plain : '/' ∉ name.toList) :
    (path.joinText name).isAbsolute = path.isAbsolute := by
  rw [joinText, isAbsolute_join, isAbsolute_of_not_mem plain, Bool.or_false]

/-! ### The path above and the closed path -/

theorem dropIdle_suffix (segments : List String) : dropIdle segments <:+ segments := by
  fun_induction dropIdle segments with
  | case1 segment next more idle hypothesis => exact hypothesis.trans (List.suffix_cons _ _)
  | case2 segment next more moving => exact List.suffix_refl _
  | case3 rest notLonger => exact List.suffix_refl _

theorem dropIdle_ne_nil {segments : List String} (some : segments ≠ []) :
    dropIdle segments ≠ [] := by
  fun_induction dropIdle segments with
  | case1 segment next more idle hypothesis => exact hypothesis (List.cons_ne_nil _ _)
  | case2 segment next more moving => exact List.cons_ne_nil _ _
  | case3 rest notLonger => exact some

/-- The path above goes along the path, unless it goes nowhere. -/
theorem segments_of_parent? {above : FilePath} (found : path.parent? = some above) :
    (∀ segment ∈ above.segments, isIdle segment) ∨ above.segments <+: path.segments := by
  unfold parent? at found
  split at found
  · cases found
  · split at found
    · cases found
    · cases found
      exact .inl (by decide)
  · next last rest notOne stripped =>
    split at found
    · cases found
      exact .inl (by decide)
    · cases found
      have inside : dropIdle rest <:+ path.segments.reverse := by
        refine (dropIdle_suffix rest).trans ((List.suffix_cons last rest).trans ?_)
        rw [← stripped]
        exact dropIdle_suffix _
      have along : (dropIdle rest).reverse <+: path.segments :=
        List.reverse_suffix.mp (by rwa [List.reverse_reverse])
      have some : (dropIdle rest).reverse ≠ [] := by
        rw [ne_eq, List.reverse_eq_nil_iff]
        refine dropIdle_ne_nil fun nothing => ?_
        exact notOne nothing
      have spelled : segments ⟨String.intercalate "/" (dropIdle rest).reverse⟩ =
          (dropIdle rest).reverse :=
        Text.splitText_intercalate some fun segment member =>
          not_mem_of_mem_segments (along.subset member)
      rw [spelled]
      exact .inr along

/-- A path is the closed path and slashes. -/
theorem closed_append (path : FilePath) :
    ∃ count, path.text.toList = path.closed.text.toList ++ List.replicate count '/' := by
  let reversed := path.text.toList.reverse
  have slashes : ∀ c ∈ reversed.takeWhile (· == '/'), c = '/' := fun c member =>
    beq_iff_eq.mp (List.all_eq_true.mp (List.all_takeWhile ..) c member)
  refine ⟨(reversed.takeWhile (· == '/')).length, ?_⟩
  rw [closed, String.toList_ofList, ← List.reverse_replicate, ← List.reverse_append,
    ← List.eq_replicate_of_mem slashes, List.takeWhile_append_dropWhile, List.reverse_reverse]

/-- The path without the slashes at its end goes along the path. -/
theorem closed_segments (path : FilePath) : path.closed.segments <+: path.segments := by
  obtain ⟨count, whole⟩ := path.closed_append
  cases count with
  | zero =>
    have same : path.text = path.closed.text := by
      rw [← String.toList_inj, whole, List.replicate_zero, List.append_nil]
    exact ⟨[], by rw [List.append_nil, segments, segments, same]⟩
  | succ more =>
    have same : path.text = String.ofList (path.closed.text.toList ++ '/' ::
        List.replicate more '/') := by
      rw [← List.replicate_succ, ← whole, String.ofList_toList]
    rw [segments, segments, same, Text.splitText_append_cons, String.ofList_toList]
    exact List.prefix_append _ _

theorem isAbsolute_closed (some : path.closed.text ≠ "") :
    path.closed.isAbsolute = path.isAbsolute := by
  obtain ⟨count, whole⟩ := path.closed_append
  have nonempty : path.closed.text.toList ≠ [] := by rwa [ne_eq, String.toList_eq_nil_iff]
  obtain ⟨c, more, characters⟩ := List.exists_cons_of_ne_nil nonempty
  rw [isAbsolute, isAbsolute, whole, characters]
  rfl

end FilePath

/-! ### Where a path leads -/

namespace FileTree

variable {tree before after later : FileTree} {path : FilePath} {location here : Location}

/-- The location to which the segments of a path lead. -/
def place? (tree : FileTree) (path : FilePath) : Option Location :=
  tree.walk path.segments (tree.start path)

/-- A path leads past a location, or to it. -/
def Passes (tree : FileTree) (path : FilePath) (location : Location) : Prop :=
  ∃ first, first <+: path.segments ∧ tree.walk first (tree.start path) = some location

/-- Whether a name can stand in a path as a component of its own. -/
def IsComponent (name : String) : Prop :=
  '/' ∉ name.toList ∧ FilePath.isIdle name = false ∧ name ≠ ".."

instance (name : String) : Decidable (IsComponent name) :=
  inferInstanceAs (Decidable (_ ∧ _ ∧ _))

/-- A segment is a component if it is neither empty nor has a meaning of its own. -/
theorem isComponent_of_mem_segments {text name : String} (inside : name ∈ Text.splitText '/' text)
    (nonempty : name ≠ "") (plain : name ≠ "." ∧ name ≠ "..") : IsComponent name :=
  ⟨Text.not_mem_of_mem_splitText inside, by simp [FilePath.isIdle, nonempty, plain.1], plain.2⟩

theorem place?_of_locate? (leads : tree.locate? path = some location) :
    tree.place? path = some location := by
  unfold locate? at leads
  split at leads
  · exact leads
  · cases leads

theorem start_of_grows (grows : Grows before after) (path : FilePath) :
    after.start path = before.start path := by
  rw [start, start, grows.start]

theorem Passes.of_grows (grows : Grows before after) (passes : before.Passes path location) :
    after.Passes path location := by
  obtain ⟨first, along, leads⟩ := passes
  refine ⟨first, along, ?_⟩
  rw [start_of_grows grows]
  exact walk_of_grows grows leads

/-- **Segments none of which leads up lead down**, past those that are not idle. -/
theorem eq_append_filter_of_walk {segments : List String}
    (plain : ∀ segment ∈ segments, segment ≠ "..")
    (leads : tree.walk segments here = some location) :
    location = here ++ segments.filter (!FilePath.isIdle ·) := by
  induction segments generalizing here with
  | nil => simpa [walk] using leads.symm
  | cons segment rest hypothesis =>
    obtain ⟨notUp, others⟩ := List.forall_mem_cons.mp plain
    rw [walk, if_neg notUp] at leads
    split at leads
    · split at leads
      · next idle => rw [hypothesis others leads, List.filter_cons_of_neg (by simpa using idle)]
      · next moving =>
        split at leads
        · rw [hypothesis others leads, List.filter_cons_of_pos (by simpa using moving),
            List.append_assoc, List.singleton_append]
        · cases leads
    · cases leads

theorem filter_of_isComponent {names : List String}
    (components : ∀ name ∈ names, IsComponent name) : names.filter (!FilePath.isIdle ·) = names :=
  List.filter_eq_self.mpr fun name member => by rw [(components name member).2.1, Bool.not_false]

/-- **A relative path below a path leads on** from where the path leads. -/
theorem place?_join {below : FilePath} (relative : below.isAbsolute = false) :
    tree.place? (path.join below) = (tree.place? path).bind (tree.walk below.segments) := by
  obtain ⟨base, joined, own⟩ := path.segments_join relative
  have begins : tree.start (path.join below) = tree.start path := by
    rw [start, start, FilePath.isAbsolute_join, relative, Bool.or_false]
  rw [place?, place?, begins, joined, walk_append]
  rcases own with own | own
  · rw [own]
  · -- An empty segment at the end leads nowhere, but there has to be a directory.
    rw [own, walk_append, Option.bind_assoc]
    obtain ⟨first, more, some⟩ :=
      List.exists_cons_of_ne_nil (Text.splitText_ne_nil '/' below.text)
    rw [FilePath.segments, some]
    congr 1
    funext here
    by_cases directory : tree.entryAt? here = Option.some .directory
    · simp [walk, directory, FilePath.isIdle]
    · simp [walk, directory]

/-- Relative paths below a path lead on from where the path leads. -/
theorem place?_foldl_join {pieces : List String}
    (relative : ∀ piece ∈ pieces, FilePath.isAbsolute ⟨piece⟩ = false) :
    tree.place? (pieces.foldl FilePath.joinText path) =
      (tree.place? path).bind
        (tree.walk (pieces.flatMap fun piece => FilePath.segments ⟨piece⟩)) := by
  induction pieces generalizing path with
  | nil =>
    rw [List.foldl_nil]
    cases tree.place? path <;> rfl
  | cons piece rest hypothesis =>
    obtain ⟨first, others⟩ := List.forall_mem_cons.mp relative
    rw [List.foldl_cons, hypothesis others, FilePath.joinText, place?_join first,
      Option.bind_assoc, List.flatMap_cons]
    congr 1
    funext here
    rw [walk_append]

/-- Names below a path lead on from where the path leads. -/
theorem place?_foldl {names : List String} (components : ∀ name ∈ names, IsComponent name) :
    tree.place? (names.foldl FilePath.joinText path) =
      (tree.place? path).bind (tree.walk names) := by
  rw [place?_foldl_join fun name member =>
    FilePath.isAbsolute_of_not_mem (components name member).1]
  have each : names.map (fun name => FilePath.segments ⟨name⟩) = names.map fun name => [name] :=
    List.map_congr_left fun name member => FilePath.segments_of_not_mem (components name member).1
  rw [List.flatMap_def, each, ← List.flatMap_def, List.flatMap_singleton']

/-- Names below a path lead down from where the path leads. -/
theorem place?_foldl_joinText {names : List String} (components : ∀ name ∈ names, IsComponent name)
    (leads : tree.place? (names.foldl FilePath.joinText path) = some location) :
    ∃ place, tree.place? path = some place ∧ location = place ++ names := by
  rw [place?_foldl components] at leads
  obtain ⟨place, first, down⟩ := Option.bind_eq_some_iff.mp leads
  refine ⟨place, first, ?_⟩
  rw [eq_append_filter_of_walk (fun name member => (components name member).2.2) down,
    filter_of_isComponent components]

/-- A path passes what the path above it passes. -/
theorem Passes.joinText {name : String} (component : IsComponent name)
    (passes : tree.Passes path location) : tree.Passes (path.joinText name) location := by
  obtain ⟨first, along, leads⟩ := passes
  obtain ⟨base, below, own⟩ := path.segments_joinText component.1
  have begins : tree.start (path.joinText name) = tree.start path := by
    rw [start, start, FilePath.isAbsolute_joinText component.1]
  have onTheWay {front : List String} (inside : front <+: base)
      (leads : tree.walk front (tree.start path) = some location) :
      tree.Passes (path.joinText name) location := by
    refine ⟨front, ?_, by rw [begins, leads]⟩
    rw [below]
    exact inside.trans (List.prefix_append base [name])
  rcases own with own | own
  · rw [own] at along
    exact onTheWay along leads
  · rw [own, List.prefix_concat_iff] at along
    rcases along with rfl | inside
    · -- The empty segment at the end stays where the others lead.
      rw [walk_append] at leads
      obtain ⟨here, front, last⟩ := Option.bind_eq_some_iff.mp leads
      rw [walk] at last
      split at last
      · cases last
        exact onTheWay (List.prefix_refl base) front
      · cases last
    · exact onTheWay inside leads

/-! ### Directories -/

/-- Where nothing stood is a directory now. -/
structure NewDirectory (before after : FileTree) (location : Location) : Prop where
  absent : before.entryAt? location = none
  present : after.entryAt? location = some .directory

theorem NewDirectory.of_grows (grows : Grows after later)
    (made : NewDirectory before after location) : NewDirectory before later location :=
  ⟨made.absent, grows.directory location made.present⟩

/-- An entry that is put changes nothing elsewhere. -/
theorem eq_of_touched_put {entry : FileEntry} {other : Location} (below : other ≠ [])
    (touched : (tree.put other entry).entryAt? location ≠ tree.entryAt? location) :
    location = other := by
  rw [entryAt?_put below] at touched
  by_cases same : location = other
  · exact same
  · exact absurd (if_neg same) touched

/-- What making directories along segments begins with: nothing is possible, or a step is, to what
stands there or to a new directory. -/
theorem makeAlong_cons_cases (tree : FileTree) (segment : String) (rest : List String)
    (here : Location) : makeAlong (segment :: rest) here tree = (tree, false) ∨
      ∃ next changed, makeAlong (segment :: rest) here tree = makeAlong rest next changed ∧
        changed.walk [segment] here = some next ∧
        (changed = tree ∨ tree.entryAt? next = none ∧ changed = tree.put next .directory) := by
  rw [makeAlong]
  split
  · next directory =>
    split
    · next idle => exact .inr ⟨here, tree, rfl, by simp [walk, directory, idle], .inl rfl⟩
    · next moving =>
      split
      · next up => exact .inr ⟨here.dropLast, tree, rfl, by simp_all [walk], .inl rfl⟩
      · next down =>
        dsimp only
        split
        · next entry there =>
          exact .inr ⟨_, tree, rfl, by simp [walk, directory, moving, down, there], .inl rfl⟩
        · next absent =>
          split
          · next named =>
            have keeps := keeps_put absent .directory
            have stands : ((tree.put (here ++ [segment]) .directory).entryAt?
                (here ++ [segment])).isSome := by
              rw [entryAt?_put (by simp), if_pos rfl]
              rfl
            exact .inr ⟨_, tree.put (here ++ [segment]) .directory, rfl,
              walk_name named (keeps.entry _ _ directory) stands, .inr ⟨absent, rfl⟩⟩
          · exact .inl rfl
  · exact .inl rfl

/-- **Directories are made along the segments only.** -/
theorem touched_makeAlong {segments : List String}
    (touched : (makeAlong segments here tree).1.entryAt? location ≠ tree.entryAt? location) :
    NewDirectory tree (makeAlong segments here tree).1 location ∧
      ∃ first, first <+: segments ∧
        (makeAlong segments here tree).1.walk first here = some location := by
  induction segments generalizing here tree with
  | nil => exact absurd rfl touched
  | cons segment rest hypothesis =>
    rcases tree.makeAlong_cons_cases segment rest here with
      nothing | ⟨next, changed, further, step, same⟩
    · rw [nothing] at touched
      exact absurd rfl touched
    · rw [further] at touched ⊢
      have keeps := keeps_makeAlong rest next changed
      have step' := walk_of_grows keeps.grows step
      by_cases earlier : changed.entryAt? location = tree.entryAt? location
      · rw [← earlier] at touched
        obtain ⟨⟨absent, present⟩, first, along, leads⟩ := hypothesis touched
        refine ⟨⟨earlier ▸ absent, present⟩, segment :: first, ?_, ?_⟩
        · exact List.prefix_cons_inj segment |>.mpr along
        · rw [← List.singleton_append, walk_append, step', Option.bind_some, leads]
      · rcases same with rfl | ⟨absent, rfl⟩
        · exact absurd rfl earlier
        · have below : next ≠ [] := by
            rintro rfl
            cases absent
          obtain rfl := eq_of_touched_put below earlier
          refine ⟨⟨absent, keeps.entry _ _ ?_⟩, [segment], ?_, step'⟩
          · rw [entryAt?_put below, if_pos rfl]
          · exact List.prefix_append [segment] rest

/-- Segments that lead nowhere need no directories. -/
theorem makeAlong_of_idle {segments : List String}
    (idle : ∀ segment ∈ segments, FilePath.isIdle segment) :
    (makeAlong segments here tree).1 = tree := by
  induction segments with
  | nil => rfl
  | cons segment rest hypothesis =>
    obtain ⟨first, others⟩ := List.forall_mem_cons.mp idle
    rw [makeAlong]
    split
    · simpa only [first, if_true] using hypothesis others
    · rfl

/-- A directory is made at its destination, or nothing changes. -/
theorem makeDirectory_cases (tree : FileTree) (path : FilePath) :
    (tree.makeDirectory path).1 = tree ∨ ∃ location,
      tree.destination? path.closed = some location ∧ tree.entryAt? location = none ∧
        (tree.makeDirectory path).1 = tree.put location .directory := by
  unfold makeDirectory
  split
  · exact .inl rfl
  · split
    · exact .inl rfl
    · next location found =>
      split
      · exact .inl rfl
      · next absent => exact .inr ⟨location, found, by simpa using absent, rfl⟩

/-- Where something can be made, its path leads once it is there. -/
theorem walk_of_destination? {entry : FileEntry} (found : tree.destination? path = some location)
    (grows : Grows tree (tree.put location entry)) :
    (tree.put location entry).walk path.segments (tree.start path) = some location := by
  obtain ⟨above, name, here, segments, -, named, leads, directory, rfl⟩ :=
    destination?_eq_some found
  rw [segments, walk_append]
  refine Option.bind_eq_some_iff.mpr ⟨here, walk_of_grows grows leads, ?_⟩
  refine walk_name named (grows.directory here directory) ?_
  rw [entryAt?_put (by simp), if_pos rfl]
  rfl

/-- **A directory is only made at the end of its path.** -/
theorem touched_makeDirectory
    (touched : (tree.makeDirectory path).1.entryAt? location ≠ tree.entryAt? location) :
    NewDirectory tree (tree.makeDirectory path).1 location ∧
      (tree.makeDirectory path).1.Passes path location := by
  rcases tree.makeDirectory_cases path with nothing | ⟨other, found, absent, made⟩
  · rw [nothing] at touched
    exact absurd rfl touched
  · have below : other ≠ [] := by
      rintro rfl
      cases absent
    rw [made] at touched ⊢
    obtain rfl := eq_of_touched_put below touched
    refine ⟨⟨absent, by rw [entryAt?_put below, if_pos rfl]⟩, path.closed.segments,
      path.closed_segments, ?_⟩
    have some : path.closed.text ≠ "" := by
      obtain ⟨-, -, -, -, fits, -⟩ := destination?_eq_some found
      rintro empty
      simp [isLookupPath, empty] at fits
    have begins : (tree.put location .directory).start path = tree.start path.closed := by
      rw [start, start, FilePath.isAbsolute_closed some]
      rfl
    rw [begins]
    exact walk_of_destination? found (keeps_put absent .directory).grows

/-- Making directories is making those above a path, and then perhaps the last one. -/
theorem makeDirectories_cases (tree : FileTree) (path : FilePath) :
    (tree.makeDirectories path).1 = tree ∨ ∃ above, path.parent? = some above ∧
      ((tree.makeDirectories path).1 = (makeAlong above.segments (tree.start path) tree).1 ∨
        (tree.makeDirectories path).1 =
          ((makeAlong above.segments (tree.start path) tree).1.makeDirectory path).1) := by
  unfold makeDirectories
  split
  · exact .inl rfl
  · split
    · split
      · exact .inl rfl
      · next above parent =>
        dsimp only
        split
        · exact .inr ⟨above, parent, .inr rfl⟩
        · exact .inr ⟨above, parent, .inl rfl⟩
    · exact .inl rfl

/-- **Directories are only made on the way.** -/
theorem touched_makeDirectories
    (touched : (tree.makeDirectories path).1.entryAt? location ≠ tree.entryAt? location) :
    NewDirectory tree (tree.makeDirectories path).1 location ∧
      (tree.makeDirectories path).1.Passes path location := by
  rcases tree.makeDirectories_cases path with nothing | ⟨above, parent, made⟩
  · rw [nothing] at touched
    exact absurd rfl touched
  · let changed := (makeAlong above.segments (tree.start path) tree).1
    have keeps : Keeps tree changed := keeps_makeAlong above.segments (tree.start path) tree
    have along (different : changed.entryAt? location ≠ tree.entryAt? location) :
        NewDirectory tree changed location ∧ changed.Passes path location := by
      rcases FilePath.segments_of_parent? parent with idle | onTheWay
      · exact absurd (congrArg (entryAt? · location) (makeAlong_of_idle idle)) different
      · obtain ⟨new, first, inside, leads⟩ := touched_makeAlong different
        refine ⟨new, first, inside.trans onTheWay, ?_⟩
        rwa [start_of_grows keeps.grows]
    rcases made with made | made
    · rw [made] at touched ⊢
      exact along touched
    · rw [made] at touched ⊢
      by_cases earlier : changed.entryAt? location = tree.entryAt? location
      · rw [← earlier] at touched
        obtain ⟨⟨absent, present⟩, passes⟩ := touched_makeDirectory touched
        exact ⟨⟨earlier ▸ absent, present⟩, passes⟩
      · have grows := (keeps_makeDirectory changed path).grows
        obtain ⟨new, passes⟩ := along earlier
        exact ⟨new.of_grows grows, passes.of_grows grows⟩

/-! ### Changes -/

/-- What a change did at a location that is not as it was: a file stands there and the path of the
change leads to it, or there is a new directory that the path leads past. -/
inductive Touches (before after : FileTree) (location : Location) : Change → Prop
  | file {path : FilePath} {content : Bytes} (leads : after.locate? path = some location)
      (stands : after.entryAt? location = some (.file content)) :
      Touches before after location (.write path content)
  | directory {path : FilePath} (made : NewDirectory before after location)
      (passes : after.Passes path location) :
      Touches before after location (.makeDirectories path)

/-- **A file is only put where its path leads.** -/
theorem touches_write {content : Bytes}
    (touched : (tree.write path content).1.entryAt? location ≠ tree.entryAt? location) :
    Touches tree (tree.write path content).1 location (.write path content) := by
  rcases tree.write_cases path content with nothing | ⟨other, found, plain, written⟩
  · rw [nothing] at touched
    exact absurd rfl touched
  · obtain ⟨above, name, here, -, fits, -, -, -, rfl⟩ := destination?_eq_some found
    rw [written] at touched ⊢
    obtain rfl := eq_of_touched_put (by simp) touched
    refine .file ?_ (by rw [entryAt?_put (by simp), if_pos rfl])
    rw [locate?, if_pos fits]
    exact walk_of_destination? found (grows_put (by simp) plain content)

theorem touches_apply {change : Change}
    (touched : (tree.apply change).1.entryAt? location ≠ tree.entryAt? location) :
    Touches tree (tree.apply change).1 location change := by
  cases change with
  | makeDirectories path =>
    obtain ⟨made, passes⟩ := touched_makeDirectories touched
    exact .directory made passes
  | write path content => exact touches_write touched

/-- **Every location that is not as it was has been touched by a change**, which of the later ones
none has undone. -/
theorem touches_applyAll {changes : List Change}
    (touched : (tree.applyAll changes).1.entryAt? location ≠ tree.entryAt? location) :
    ∃ change ∈ changes, Touches tree (tree.applyAll changes).1 location change := by
  induction changes generalizing tree with
  | nil => exact absurd rfl touched
  | cons change rest hypothesis =>
    have grows := grows_applyAll rest (tree.apply change).1
    unfold applyAll at touched ⊢
    dsimp only at touched ⊢
    split at touched
    · next possible =>
      rw [if_pos possible]
      by_cases earlier : (tree.apply change).1.entryAt? location = tree.entryAt? location
      · rw [← earlier] at touched
        obtain ⟨later, member, touches⟩ := hypothesis touched
        refine ⟨later, List.mem_cons_of_mem change member, ?_⟩
        cases touches with
        | file leads stands => exact .file leads stands
        | directory made passes => exact .directory ⟨earlier ▸ made.absent, made.present⟩ passes
      · cases touches_apply earlier with
        | directory made passes =>
          exact ⟨_, List.mem_cons_self, .directory (made.of_grows grows) (passes.of_grows grows)⟩
        | @file path content leads stands =>
          have leads' := locate?_of_grows grows leads
          by_cases last : ((tree.apply (.write path content)).1.applyAll rest).1.entryAt? location =
              (tree.apply (.write path content)).1.entryAt? location
          · exact ⟨_, List.mem_cons_self, .file leads' (last.trans stands)⟩
          · -- A later change put another file there: it cannot have made a directory.
            obtain ⟨later, member, touches⟩ := hypothesis last
            refine ⟨later, List.mem_cons_of_mem _ member, ?_⟩
            cases touches with
            | file leads stands => exact .file leads stands
            | directory made passes =>
              have absent := made.absent
              rw [stands] at absent
              cases absent
    · next impossible =>
      rw [if_neg impossible]
      exact ⟨change, List.mem_cons_self, touches_apply touched⟩

end FileTree

end ExtensionCatalog
