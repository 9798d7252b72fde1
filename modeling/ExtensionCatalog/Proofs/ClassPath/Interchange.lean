/-
**Directories and archives with the same files.**

A directory looks a name up segment by segment and leaves empty segments out; an archive compares
the name as a whole. So the two answer for different names: a directory for the name without empty
segments, an archive for the name itself. Files have no empty segments in their names, which makes
the two agree on every name without empty segments, and on others only where neither has anything.

* `compact`: a name without its empty segments;
* `IsExploded`, `IsPacked`: a directory, or an archive, holds some files and no others;
* `outcome_read_exploded`, `outcome_read_packed`: **what each of them reads**;
* `isPlainName_resourceName`: the names of class files have no segments with another meaning;
* `read_interchange`: **where directories and archives are interchangeable**.
-/

import ExtensionCatalog.Proofs.FileTree.Reach
import ExtensionCatalog.Proofs.LoadingContext.Definable
import ExtensionCatalog.Settings.Discovery
import Mathlib.Data.List.Induction

namespace ExtensionCatalog

/-! ### Segments of names -/

namespace Text

/-- What is put behind a text without separators belongs to the last part. -/
theorem exists_split_append {separator : Char} {behind : List Char} (free : separator ∉ behind)
    (text : List Char) : ∃ front last, split separator text = front ++ [last] ∧
      split separator (text ++ behind) = front ++ [last ++ behind] := by
  induction text with
  | nil => exact ⟨[], [], rfl, split_of_not_mem free⟩
  | cons first rest hypothesis =>
    obtain ⟨front, last, whole, grown⟩ := hypothesis
    rw [List.cons_append, split, split, whole, grown]
    split
    · exact ⟨[] :: front, last, rfl, rfl⟩
    · cases front with
      | nil => exact ⟨[], first :: last, rfl, rfl⟩
      | cons part more => exact ⟨(first :: part) :: more, last, rfl, rfl⟩

end Text

namespace ClassPathEntry

/-- The segments of a name that are not empty. -/
def segmentsOf (name : String) : List String :=
  (Text.splitText '/' name).filter (!·.isEmpty)

/-- A name without its empty segments. -/
def compact (name : String) : String := String.intercalate "/" (segmentsOf name)

/-- Whether no segment of a name leads elsewhere than down. -/
def IsPlainName (name : String) : Prop :=
  ∀ segment ∈ Text.splitText '/' name, segment ≠ "." ∧ segment ≠ ".."

instance (name : String) : Decidable (IsPlainName name) :=
  inferInstanceAs (Decidable (∀ segment ∈ _, _))

/-- A directory holds files under their names, and nothing else but the directories on the way. -/
structure IsExploded (tree : FileTree) (root : FilePath) (place : Location)
    (files : SortedMap String Bytes) : Prop where
  leads : tree.locate? root = some place
  stands : tree.entryAt? place = some .directory
  named : ∀ name content, files.find? name = some content →
    ∀ segment ∈ Text.splitText '/' name, FileTree.isName segment
  short : ∀ name content, files.find? name = some content →
    FileTree.isLookupPath (below root name)
  above : ∀ name content, files.find? name = some content →
    ∀ front rest, Text.splitText '/' name = front ++ rest → rest ≠ [] →
      tree.entryAt? (place ++ front) = some .directory
  file : ∀ name content, files.find? name = some content →
    tree.entryAt? (place ++ Text.splitText '/' name) = some (.file content)
  only : ∀ names content, tree.entryAt? (place ++ names) = some (.file content) →
    ∃ name, files.find? name = some content ∧ Text.splitText '/' name = names

/-- An archive has files as its members, and no other members. -/
structure IsPacked (tree : FileTree) (path : FilePath) (bytes : Bytes)
    (members : List Archive.Member) (files : SortedMap String Bytes) : Prop where
  stands : tree.entry? path = some (.file bytes)
  listed : Archive.readDirectory bytes = .ok members
  member : ∀ name content, files.find? name = some content → ∃ member ∈ members, member.name = name
  only : ∀ member ∈ members, ∃ content, member.content? bytes = .ok content ∧
    files.find? member.name = some content

/-! ### Names without empty segments -/

variable {name : String}

theorem isComponent_of_mem_segmentsOf (plain : IsPlainName name) {segment : String}
    (member : segment ∈ segmentsOf name) : FileTree.IsComponent segment := by
  obtain ⟨inside, nonempty⟩ := List.mem_filter.mp member
  exact FileTree.isComponent_of_mem_segments inside (by simpa using nonempty) (plain segment inside)

theorem splitText_compact (some : segmentsOf name ≠ []) :
    Text.splitText '/' (compact name) = segmentsOf name :=
  Text.splitText_intercalate some fun _ member =>
    Text.not_mem_of_mem_splitText (List.mem_filter.mp member).1

theorem compact_of_not_mem (gapless : "" ∉ Text.splitText '/' name) : compact name = name := by
  have whole : segmentsOf name = Text.splitText '/' name := by
    refine List.filter_eq_self.mpr fun segment member => ?_
    have some : segment ≠ "" := by
      rintro rfl
      exact gapless member
    simpa using some
  rw [compact, whole]
  exact Text.intercalate_splitText '/' name

/-- Compact names stand for themselves. -/
theorem segmentsOf_compact (some : segmentsOf name ≠ []) :
    segmentsOf (compact name) = segmentsOf name := by
  rw [segmentsOf, splitText_compact some, segmentsOf, List.filter_filter]
  simp only [Bool.and_self]

/-- Names lead down where there are directories on the way. -/
theorem walk_down {tree : FileTree} {here : Location} {names : List String}
    (named : ∀ name ∈ names, FileTree.isName name)
    (above : ∀ front rest, names = front ++ rest → rest ≠ [] →
      tree.entryAt? (here ++ front) = some .directory)
    (there : (tree.entryAt? (here ++ names)).isSome) :
    tree.walk names here = some (here ++ names) := by
  induction names using List.reverseRecOn with
  | nil => rw [List.append_nil, FileTree.walk]
  | append_singleton front last hypothesis =>
    have directory := above front [last] rfl (List.cons_ne_nil _ _)
    have begun : tree.walk front here = some (here ++ front) := by
      refine hypothesis (fun name member => named name (List.mem_append_left _ member)) ?_ ?_
      · intro front' rest split some
        refine above front' (rest ++ [last]) (by rw [split, List.append_assoc]) ?_
        exact List.append_ne_nil_of_left_ne_nil some _
      · rw [directory]
        rfl
    rw [FileTree.walk_append, begun, Option.bind_some, ← List.append_assoc]
    refine FileTree.walk_name (named last (by simp)) directory ?_
    rwa [List.append_assoc]

section Files

variable {tree : FileTree} {root path : FilePath} {place : Location} {bytes : Bytes}
  {members : List Archive.Member} {files : SortedMap String Bytes}

/-- What a directory has at the end of some segments is held under them. -/
theorem find?_of_read? {names : List String} (exploded : IsExploded tree root place files)
    (components : ∀ segment ∈ names, FileTree.IsComponent segment) {content : Bytes}
    (found : tree.read? (names.foldl FilePath.joinText root) = some content) :
    files.find? (String.intercalate "/" names) = some content := by
  have begins : tree.place? root = some place := FileTree.place?_of_locate? exploded.leads
  obtain ⟨location, leads, stands⟩ :=
    Option.bind_eq_some_iff.mp (FileTree.read?_eq_some_iff.mp found)
  obtain ⟨start, begins', rfl⟩ :=
    FileTree.place?_foldl_joinText components (FileTree.place?_of_locate? leads)
  cases begins.symm.trans begins'
  obtain ⟨name, held, spelled⟩ := exploded.only _ _ stands
  have whole : String.intercalate "/" (Text.splitText '/' name) = name :=
    Text.intercalate_splitText '/' name
  rwa [← spelled, whole]

/-- What is held under the segments of a name is at the end of them. -/
theorem read?_of_find? (exploded : IsExploded tree root place files) (plain : IsPlainName name)
    {content : Bytes} (held : files.find? (compact name) = some content) :
    tree.read? (below root name) = some content := by
  have begins : tree.place? root = some place := FileTree.place?_of_locate? exploded.leads
  have components : ∀ segment ∈ segmentsOf name, FileTree.IsComponent segment :=
    fun segment member => isComponent_of_mem_segmentsOf plain member
  have named := exploded.named _ _ held
  have some : segmentsOf name ≠ [] := by
    intro nothing
    have empty : compact name = "" := by
      rw [compact, nothing]
      rfl
    exact absurd (named "" (by rw [empty]; decide)) (by decide)
  have fits : FileTree.isLookupPath (below root name) := by
    have short := exploded.short _ _ held
    rwa [below, ← segmentsOf, segmentsOf_compact some] at short
  have above := exploded.above _ _ held
  have stands := exploded.file _ _ held
  rw [splitText_compact some] at named above stands
  refine FileTree.read?_eq_some_iff.mpr (Option.bind_eq_some_iff.mpr ⟨_, ?_, stands⟩)
  rw [FileTree.locate?, if_pos fits]
  change tree.place? ((segmentsOf name).foldl FilePath.joinText root) = _
  rw [FileTree.place?_foldl components, begins, Option.bind_some]
  exact walk_down named above (by rw [stands]; rfl)

/-- **A directory has what stands under the name without empty segments.** -/
theorem outcome_read_exploded (exploded : IsExploded tree root place files)
    (plain : IsPlainName name) :
    ((ofPath tree root).read tree name).outcome = .ok (files.find? (compact name)) := by
  have isDirectory : ofPath tree root = .directory root := by
    have found : tree.entry? root = some .directory :=
      Option.bind_eq_some_iff.mpr ⟨place, exploded.leads, exploded.stands⟩
    rw [ofPath, FileTree.isDirectory, found]
    rfl
  rw [isDirectory]
  show Except.ok (tree.read? (below root name)) = _
  congr 1
  apply Option.ext
  intro content
  constructor
  · exact find?_of_read? exploded fun segment member => isComponent_of_mem_segmentsOf plain member
  · exact read?_of_find? exploded plain

/-- The last of the members with a name is the file of that name. -/
theorem archive_read? (packed : IsPacked tree path bytes members files) (name : String) :
    Archive.read? bytes name = .ok (files.find? name) := by
  rw [Archive.read?, packed.listed]
  dsimp only
  cases chosen : members.reverse.find? (·.name == name) with
  | none =>
    have nothing : files.find? name = none := by
      rw [Option.eq_none_iff_forall_not_mem]
      intro content there
      obtain ⟨member, inside, named⟩ := packed.member name content there
      have different := List.find?_eq_none.mp chosen member (List.mem_reverse.mpr inside)
      exact different (beq_iff_eq.mpr named)
    rw [nothing]
  | some member =>
    have inside : member ∈ members := List.mem_reverse.mp (List.mem_of_find?_eq_some chosen)
    have named : member.name = name := by simpa using List.find?_some chosen
    obtain ⟨content, restored, there⟩ := packed.only member inside
    dsimp only
    rw [restored, ← named, there]
    rfl

/-- **An archive has what stands under the whole name.** -/
theorem outcome_read_packed (packed : IsPacked tree path bytes members files) (name : String) :
    ((ofPath tree path).read tree name).outcome = .ok (files.find? name) := by
  have isArchive : ofPath tree path = .archive path := by
    rw [ofPath, FileTree.isDirectory, packed.stands]
    rfl
  rw [isArchive, read, packed.stands]
  dsimp only
  rw [readArchive, archive_read? packed]
  rfl

end Files

/-! ### Names that are looked up -/

/-- The names of class files have no segments with another meaning: all dots but one become
slashes. -/
theorem isPlainName_resourceName (className : String) :
    IsPlainName (ClassName.resourceName className) := by
  have free : '.' ∉ (ClassName.exchange '.' '/' className).toList :=
    ClassName.not_mem_exchange (by decide) className
  obtain ⟨front, last, whole, grown⟩ := Text.exists_split_append
    (show '/' ∉ ".class".toList by decide) (ClassName.exchange '.' '/' className).toList
  have segments : Text.splitText '/' (ClassName.resourceName className) =
      (front ++ [last ++ ".class".toList]).map String.ofList := by
    rw [Text.splitText, ClassName.resourceName, String.toList_append, grown]
  intro segment member
  rw [segments] at member
  obtain ⟨part, inside, rfl⟩ := List.mem_map.mp member
  rcases List.mem_append.mp inside with early | ending
  · have among : part ∈ Text.split '/' (ClassName.exchange '.' '/' className).toList := by
      rw [whole]
      exact List.mem_append_left _ early
    have dotless : '.' ∉ part := fun dot => free (Text.subset_of_mem_split among dot)
    constructor <;> rintro equal <;> rw [← String.toList_inj, String.toList_ofList] at equal <;>
      exact dotless (by rw [equal]; decide)
  · rw [List.mem_singleton.mp ending]
    have ends : (String.ofList (last ++ ".class".toList)).toList.getLast? = some 's' := by
      rw [String.toList_ofList, List.getLast?_append]
      rfl
    constructor <;> rintro equal <;> rw [equal] at ends <;> exact absurd ends (by decide)

/-- **Where directories and archives are interchangeable.** A directory and an archive hold the same
files. For the registration of an interface, below any directory for registrations without segments
of another meaning, and for the class file of any name, the directory has what stands under the name
without empty segments, and the archive what stands under the name itself. They agree exactly if the
name has no empty segment, or if nothing stands there without them. -/
theorem read_interchange (settings : DiscoverySettings) (interface className : String)
    (plain : IsPlainName (settings.registrationPath interface)) (tree tree' : FileTree)
    (root path : FilePath) (place : Location) (bytes : Bytes) (members : List Archive.Member)
    (files : SortedMap String Bytes) (exploded : IsExploded tree root place files)
    (packed : IsPacked tree' path bytes members files) :
    ∀ name ∈ [settings.registrationPath interface, ClassName.resourceName className],
      ((ofPath tree root).read tree name).outcome = .ok (files.find? (compact name)) ∧
      ((ofPath tree' path).read tree' name).outcome = .ok (files.find? name) ∧
      (((ofPath tree root).read tree name).outcome =
          ((ofPath tree' path).read tree' name).outcome ↔
        "" ∉ Text.splitText '/' name ∨ files.find? (compact name) = none) := by
  intro name member
  have leadsDown : IsPlainName name := by
    rcases List.mem_cons.mp member with rfl | later
    · exact plain
    · rw [List.mem_singleton.mp later]
      exact isPlainName_resourceName className
  have directory := outcome_read_exploded exploded leadsDown
  have archive := outcome_read_packed packed name
  refine ⟨directory, archive, ?_⟩
  rw [directory, archive, Except.ok.injEq]
  by_cases gapless : "" ∉ Text.splitText '/' name
  · rw [compact_of_not_mem gapless]
    exact iff_of_true rfl (.inl gapless)
  · -- No file has a name with an empty segment.
    have absent : files.find? name = none := by
      rw [Option.eq_none_iff_forall_not_mem]
      intro content there
      have named := exploded.named name content there "" (not_not.mp gapless)
      exact absurd named (by decide)
    rw [absent, or_iff_right gapless]

/-- The name of a registration, as bytes. -/
def serviceName : Bytes := Text.Utf8.encode "META-INF/services/P".toList

/-- An archive with this registration, of the class `C`. -/
def packedService : Bytes :=
  [0x50, 0x4B, 3, 4, 20, 0, 0, 0, 0, 0, 0, 0, 33, 0, 0xA7, 0xFF, 0xD7, 0x3D, 1, 0, 0, 0,
    1, 0, 0, 0, 19, 0, 0, 0] ++ serviceName ++ [67] ++
  [0x50, 0x4B, 1, 2, 20, 0, 20, 0, 0, 0, 0, 0, 0, 0, 33, 0, 0xA7, 0xFF, 0xD7, 0x3D, 1, 0, 0, 0,
    1, 0, 0, 0, 19, 0, 0, 0, 0, 0, 0, 0, 0, 0, 0, 0, 0, 0, 0, 0, 0, 0] ++ serviceName ++
  [0x50, 0x4B, 5, 6, 0, 0, 0, 0, 1, 0, 1, 0, 65, 0, 0, 0, 50, 0, 0, 0, 0, 0]

def packedMember : Archive.Member where
  name := "META-INF/services/P"
  method := .stored
  isEncrypted := false
  checksum := 0x3DD7FFA7
  size := 1
  position := 0

/-- A directory with the registration, and beside it the archive. -/
def serviceFiles : FileTree where
  entries := .ofList [(["d"], .directory), (["d", "META-INF"], .directory),
    (["d", "META-INF", "services"], .directory), (["d", "META-INF", "services", "P"], .file [67]),
    (["j"], .file packedService)]
  workingDirectory := []

def registration : SortedMap String Bytes := .ofList [("META-INF/services/P", [67])]

theorem find?_registration {name : String} {content : Bytes} :
    registration.find? name = some content ↔ name = "META-INF/services/P" ∧ content = [67] := by
  rw [SortedMap.find?_eq_some_iff]
  change _ ∈ [_] ↔ _
  rw [List.mem_singleton, Prod.mk.injEq]

theorem isExploded_registration : IsExploded serviceFiles ⟨"/d"⟩ ["d"] registration where
  leads := by decide +kernel
  stands := by decide +kernel
  named := by
    intro name content held
    obtain ⟨rfl, rfl⟩ := find?_registration.mp held
    decide +kernel
  short := by
    intro name content held
    obtain ⟨rfl, rfl⟩ := find?_registration.mp held
    decide +kernel
  above := by
    intro name content held front rest split behind
    obtain ⟨rfl, rfl⟩ := find?_registration.mp held
    have directories : ∀ count < 3, serviceFiles.entryAt?
        (["d"] ++ (Text.splitText '/' "META-INF/services/P").take count) = some .directory := by
      decide +kernel
    have bound : front.length < 3 := by
      have whole : 3 = front.length + rest.length := by
        rw [← List.length_append, ← split]
        rfl
      have inside : 0 < rest.length := List.length_pos_iff.mpr behind
      omega
    have taken := directories front.length bound
    rwa [split, List.take_left] at taken
  file := by
    intro name content held
    obtain ⟨rfl, rfl⟩ := find?_registration.mp held
    decide +kernel
  only := by
    intro names content there
    have listed : serviceFiles.entries.toList = [(["d"], .directory),
        (["d", "META-INF"], .directory), (["d", "META-INF", "services"], .directory),
        (["d", "META-INF", "services", "P"], .file [67]), (["j"], .file packedService)] := by
      decide +kernel
    rw [FileTree.entryAt?, if_neg (by simp), SortedMap.find?_eq_some_iff, listed] at there
    have same : names = ["META-INF", "services", "P"] ∧ content = [67] := by simpa using there
    exact ⟨"META-INF/services/P", find?_registration.mpr ⟨rfl, same.2⟩, same.1 ▸ rfl⟩

theorem isPacked_registration :
    IsPacked serviceFiles ⟨"/j"⟩ packedService [packedMember] registration where
  stands := by decide +kernel
  listed := Outcome.eq_ok_of_toOption (by decide +kernel)
  member := by
    intro name content held
    obtain ⟨rfl, rfl⟩ := find?_registration.mp held
    exact ⟨packedMember, List.mem_singleton_self _, rfl⟩
  only := by
    intro member inside
    rw [List.mem_singleton.mp inside]
    exact ⟨[67], by decide +kernel, by decide +kernel⟩

/-- The registration is read from both with the default settings. -/
theorem read_interchange_registration :
    IsPlainName (({} : DiscoverySettings).registrationPath "P") ∧
    IsExploded serviceFiles ⟨"/d"⟩ ["d"] registration ∧
    IsPacked serviceFiles ⟨"/j"⟩ packedService [packedMember] registration ∧
    ((ofPath serviceFiles ⟨"/d"⟩).read serviceFiles "META-INF/services/P").outcome =
      .ok (some [67]) ∧
    ((ofPath serviceFiles ⟨"/j"⟩).read serviceFiles "META-INF/services/P").outcome =
      .ok (some [67]) := by
  have plain : IsPlainName (({} : DiscoverySettings).registrationPath "P") := by decide +kernel
  obtain ⟨directory, archive, -⟩ := read_interchange {} "P" "C" plain serviceFiles serviceFiles
    ⟨"/d"⟩ ⟨"/j"⟩ ["d"] packedService [packedMember] registration isExploded_registration
    isPacked_registration "META-INF/services/P" (by decide +kernel)
  exact ⟨plain, isExploded_registration, isPacked_registration, directory.trans (by decide +kernel),
    archive.trans (by decide +kernel)⟩

/-- Below a directory for registrations whose path has two slashes in a row, the registration is
read from the directory alone. -/
theorem not_interchangeable :
    ¬ ∀ (settings : DiscoverySettings) (interface : String) (tree tree' : FileTree)
      (root path : FilePath) (place : Location) (bytes : Bytes) (members : List Archive.Member)
      (files : SortedMap String Bytes), IsExploded tree root place files →
      IsPacked tree' path bytes members files →
        ((ofPath tree root).read tree (settings.registrationPath interface)).outcome =
          ((ofPath tree' path).read tree' (settings.registrationPath interface)).outcome := by
  intro interchangeable
  have same := interchangeable { servicesDirectory := "META-INF//services/" } "P" _ _ _ _ _ _ _ _
    isExploded_registration isPacked_registration
  rw [outcome_read_packed isPacked_registration, outcome_read_exploded isExploded_registration
    (by decide +kernel)] at same
  exact absurd same (by decide +kernel)

end ClassPathEntry

end ExtensionCatalog
