/-
**Discovery is a function of the registered names.**

The resources of all levels are merged into one set of names before any class is looked at, so where
and how often a name is listed is forgotten there. The names are then described in ascending order,
all or none: the first failure is that of the least failing name.

* `IsRegistered`: a line of some resource lists a name;
* `exists_classNames`: the merged set holds these names, none lost and none invented;
* `SortedSet.mapM_toList_eq_error_iff`: one action for each member of a set fails at the least
  failing member;
* `described`: what a name comes to on its own;
* `discover_registered`: **success, result and error by the registered names alone**.
-/

import ExtensionCatalog.Proofs.Discovery.Ancestors
import Mathlib.Data.String.Basic
import Mathlib.Order.Compare

namespace ExtensionCatalog

/-! ### Listed names -/

/-- A name is listed on a line if the trimmed line is the name, and neither blank nor a comment. -/
def IsListedOn (line : List Char) (name : String) : Prop :=
  Text.trim line = name.toList ∧ name ≠ "" ∧ name.toList.head? ≠ some '#'

theorem registeredName?_eq_some_iff {line : List Char} {name : String} :
    registeredName? line = some name ↔ IsListedOn line name := by
  unfold registeredName? IsListedOn
  split
  · rename_i blank
    rw [blank]
    refine iff_of_false (by simp) fun listed => listed.2.1 ?_
    rw [← String.toList_inj, ← listed.1]
    rfl
  · rename_i rest comment
    rw [comment]
    refine iff_of_false (by simp) fun listed => listed.2.2 ?_
    rw [← listed.1]
    rfl
  · rename_i visible plain
    rw [Option.some.injEq]
    constructor
    · rintro rfl
      rw [String.toList_ofList]
      refine ⟨rfl, fun blank => visible ?_, fun first => ?_⟩
      · rw [← String.toList_ofList (l := Text.trim line), blank]
        rfl
      · obtain ⟨rest, comment⟩ := List.head?_eq_some_iff.mp first
        exact plain rest comment
    · rintro ⟨same, -, -⟩
      rw [same, String.ofList_toList]

theorem mem_registeredNames {text : List Char} {name : String} :
    name ∈ registeredNames text ↔ ∃ line ∈ Text.lines text, IsListedOn line name := by
  unfold registeredNames
  simp only [SortedSet.mem_ofList, List.mem_filterMap, registeredName?_eq_some_iff]

namespace LoadingContext

/-- What is found are the contents of the sources, each with its own source. -/
theorem mem_findResources_iff {context : LoadingContext} {tree : FileTree} {name : String}
    {resources : List Resource} (found : (context.findResources tree name).outcome = .ok resources)
    {resource : Resource} :
    resource ∈ resources ↔ resource.source ∈ context.sources ∧
      (resource.source.entry.read tree name).outcome = .ok (some resource.content) := by
  unfold findResources at found
  simp only [Logged.outcome_bind, Logged.outcome_mapM, Outcome.bind_eq_ok_iff] at found
  obtain ⟨each, read, kept⟩ := found
  cases kept
  rw [List.reduceOption_mem_iff, Outcome.mem_of_mapM_eq_ok read]
  simp only [outcome_readSource, Outcome.map_eq_ok_iff]
  constructor
  · rintro ⟨source, member, content, yields, here⟩
    obtain ⟨bytes, rfl, rfl⟩ := Option.map_eq_some_iff.mp here
    exact ⟨member, yields⟩
  · rintro ⟨member, yields⟩
    exact ⟨resource.source, member, some resource.content, yields, rfl⟩

end LoadingContext

/-! ### One action for each member of a set -/

/-- **The least failing member counts.** The actions for the members of a set, in order, fail with
the error of the least member that has any. -/
theorem SortedSet.mapM_toList_eq_error_iff {ε α β : Type} [Ord α] [Std.TransOrd α]
    {action : α → Except ε β} {set : SortedSet α} {fault : ε} :
    set.toList.mapM action = .error fault ↔ ∃ item ∈ set, action item = .error fault ∧
      ∀ other ∈ set, compare other item = .lt → ∃ value, action other = .ok value := by
  rw [Outcome.mapM_eq_error_iff]
  constructor
  · rintro ⟨before, item, after, whole, earlier, failed⟩
    have ascending := set.ascending
    rw [whole, List.pairwise_append] at ascending
    obtain ⟨-, later, -⟩ := ascending
    refine ⟨item, by simp [mem_def, whole], failed, fun other member below => ?_⟩
    rw [mem_def, whole, List.mem_append, List.mem_cons] at member
    rcases member with here | rfl | there
    · exact earlier other here
    · simp at below
    · -- Behind the failing member there are only greater ones.
      have cycle := Std.TransCmp.lt_trans below ((List.pairwise_cons.mp later).1 other there)
      simp at cycle
  · rintro ⟨item, member, failed, earlier⟩
    obtain ⟨before, after, whole⟩ := List.append_of_mem member
    have ascending := set.ascending
    rw [whole, List.pairwise_append] at ascending
    refine ⟨before, item, after, whole, fun other here => ?_, failed⟩
    exact earlier other (by simp [mem_def, whole, here])
      (ascending.2.2 other here item (List.mem_cons_self ..))

namespace Survey

open LoadingContext

variable {survey : Survey} {extensionType : ExtensionType} {path : String}

/-! ### Registered names -/

/-- A name is registered if an entry of a level has a content at the path that lists it. -/
def IsRegistered (survey : Survey) (path name : String) : Prop :=
  ∃ level ∈ survey.context.levels, ∃ entry ∈ level.entries, ∃ content,
    (entry.read survey.tree path).outcome = .ok (some content) ∧
      ∃ line ∈ Text.lines (Text.Utf8.decodeLossy content), IsListedOn line name

/-- Whether every entry of every level can tell what it has at the path. -/
def IsReadable (survey : Survey) (path : String) : Prop :=
  ∀ level ∈ survey.context.levels, ∀ entry ∈ level.entries,
    ∃ content, (entry.read survey.tree path).outcome = .ok content

/-- The path of the registration resources of a type that has a contract. -/
def registrationPath? (survey : Survey) (extensionType : ExtensionType) : Option String :=
  (survey.settings.contract? extensionType).map survey.settings.registrationPath

theorem exists_findResources (readable : survey.IsReadable path) :
    ∃ resources, (survey.context.findResources survey.tree path).outcome = .ok resources := by
  refine (Outcome.ok_or_error _).resolve_right ?_
  rintro ⟨fault, failed⟩
  unfold findResources at failed
  simp only [Logged.outcome_bind, Logged.outcome_mapM, Outcome.bind_eq_error_iff] at failed
  rcases failed with failed | ⟨each, -, kept⟩
  · obtain ⟨before, source, after, whole, -, failed⟩ := Outcome.mapM_eq_error_iff.mp failed
    have member : source ∈ survey.context.sources := by simp [whole]
    obtain ⟨ancestor, above, -, inside⟩ := mem_sources.mp member
    obtain ⟨content, read⟩ := readable _ (List.mem_map_of_mem above) _ inside
    rw [outcome_readSource, read] at failed
    cases failed
  · cases kept

/-- **The names of a type are those that are registered for it.** If everything can be read, the
merged set has exactly these members. -/
theorem exists_classNames (configured : survey.registrationPath? extensionType = some path)
    (readable : survey.IsReadable path) :
    ∃ names, (survey.classNames extensionType).outcome = .ok names ∧
      ∀ name, name ∈ names ↔ survey.IsRegistered path name := by
  obtain ⟨interface, mapped, rfl⟩ := Option.map_eq_some_iff.mp configured
  obtain ⟨resources, found⟩ := exists_findResources readable
  refine ⟨_, classNames_eq_ok_iff.mpr ⟨interface, resources, mapped, found, rfl⟩, fun name => ?_⟩
  rw [mem_foldl_union]
  simp only [mem_findResources_iff found, mem_registeredNames]
  constructor
  · rintro (nothing | ⟨resource, ⟨member, read⟩, listed⟩)
    · cases nothing
    · obtain ⟨ancestor, above, -, inside⟩ := mem_sources.mp member
      exact ⟨_, List.mem_map_of_mem above, _, inside, _, read, listed⟩
  · rintro ⟨level, member, entry, inside, content, read, listed⟩
    obtain ⟨ancestor, above, rfl⟩ := List.mem_map.mp member
    exact .inr ⟨⟨⟨ancestor.level.id, entry⟩, content⟩,
      ⟨mem_sources.mpr ⟨ancestor, above, rfl, inside⟩, read⟩, listed⟩

/-- The names of a type, as a computation lists them. -/
theorem isRegistered_iff_mem (configured : survey.registrationPath? extensionType = some path)
    (readable : survey.IsReadable path) {items : List String}
    (computed : (survey.classNames extensionType).outcome.toOption.map (·.toList) = some items)
    (name : String) : survey.IsRegistered path name ↔ name ∈ items := by
  obtain ⟨names, listed, members⟩ := exists_classNames configured readable
  rw [listed] at computed
  have same : names.toList = items := Option.some.inj computed
  rw [← members, SortedSet.mem_def, same]

/-! ### Names on their own -/

/-- What a name comes to on its own: its class is loaded through the context, and then its metadata
are extracted. -/
def described (survey : Survey) (extensionType : ExtensionType) (name : String) :
    Except Error Definition := do
  let loaded ← (survey.context.load survey.tree name).outcome
  (survey.extract loaded extensionType).outcome

theorem outcome_describe (name : String) :
    (survey.describe extensionType name).outcome =
      (survey.described extensionType name).mapError (.extensionDefinition extensionType name) := by
  rw [describe, Logged.outcome_mapError, Logged.outcome_bind, described]

theorem describe_eq_ok {name : String} {definition : Definition} :
    (survey.describe extensionType name).outcome = .ok definition ↔
      survey.described extensionType name = .ok definition := by
  rw [outcome_describe, Outcome.mapError_eq_ok_iff]

theorem describe_eq_error {name : String} {error : Error} :
    (survey.describe extensionType name).outcome = .error error ↔
      ∃ cause, survey.described extensionType name = .error cause ∧
        error = .extensionDefinition extensionType name cause := by
  rw [outcome_describe, Outcome.mapError_eq_error_iff]

theorem type_of_described {name : String} {definition : Definition}
    (yields : survey.described extensionType name = .ok definition) :
    definition.extensionType = extensionType := by
  obtain ⟨loaded, -, extracted⟩ := describe_eq_ok_iff.mp (describe_eq_ok.mpr yields)
  exact (extract_eq_ok_iff.mp extracted).1

theorem name_of_described {name : String} {definition : Definition}
    (yields : survey.described extensionType name = .ok definition) : definition.name = name :=
  name_of_describe (describe_eq_ok.mpr yields)

/-- What is logged aside, the names are described in order and the results collected. -/
theorem outcome_discover :
    (survey.discover extensionType).outcome = (do
      let names ← (survey.classNames extensionType).outcome
      let found ← names.toList.mapM fun name => (survey.describe extensionType name).outcome
      return .ofList found) := by
  unfold discover
  simp only [Logged.outcome_bind, Logged.outcome_mapM]
  refine bind_congr fun names => bind_congr fun found => ?_
  by_cases some : (!names.isEmpty) = true
  · rw [if_pos some]
    rfl
  · rw [if_neg some]
    rfl

section Listed

variable {names : SortedSet String}
  (listed : (survey.classNames extensionType).outcome = .ok names)

include listed

/-- All names are described, or the error is that of the least one that is not. -/
theorem discover_eq_error_iff {error : Error} :
    (survey.discover extensionType).outcome = .error error ↔ ∃ name cause,
      error = .extensionDefinition extensionType name cause ∧ name ∈ names ∧
        survey.described extensionType name = .error cause ∧
        ∀ other ∈ names, other < name →
          ∃ definition, survey.described extensionType other = .ok definition := by
  have eq : (survey.discover extensionType).outcome =
      (names.toList.mapM fun name => (survey.describe extensionType name).outcome) >>=
        fun found => pure (.ofList found) := by
    rw [outcome_discover, listed]
    rfl
  rw [eq, Outcome.bind_eq_error_iff, SortedSet.mapM_toList_eq_error_iff]
  simp only [describe_eq_error, describe_eq_ok, compare_lt_iff_lt]
  constructor
  · rintro (⟨name, member, ⟨cause, failed, rfl⟩, earlier⟩ | ⟨found, -, equal⟩)
    · exact ⟨name, cause, rfl, member, failed, earlier⟩
    · cases equal
  · rintro ⟨name, cause, rfl, member, failed, earlier⟩
    exact .inl ⟨name, member, ⟨cause, failed, rfl⟩, earlier⟩

theorem exists_discover_iff :
    (∃ definitions, (survey.discover extensionType).outcome = .ok definitions) ↔
      ∀ name ∈ names, ∃ definition, survey.described extensionType name = .ok definition := by
  constructor
  · rintro ⟨definitions, discovered⟩ name member
    obtain ⟨names', found, listed', each, -⟩ := discover_eq_ok_iff.mp discovered
    rw [listed] at listed'
    cases listed'
    obtain ⟨definition, yields⟩ := Outcome.exists_of_mapM_eq_ok each member
    exact ⟨definition, describe_eq_ok.mp yields⟩
  · intro all
    refine (Outcome.ok_or_error _).resolve_right ?_
    rintro ⟨error, failed⟩
    obtain ⟨name, cause, -, member, failed, -⟩ := (discover_eq_error_iff listed).mp failed
    obtain ⟨definition, yields⟩ := all name member
    rw [yields] at failed
    cases failed

end Listed

/-! ### Discovery by names -/

/-- What discovery of a type comes to, given the registered names and what each is described as. -/
structure IsDiscovery (registered : String → Prop) (described : String → Except Error Definition)
    (extensionType : ExtensionType) (outcome : Except Error (SortedSet Definition)) : Prop where
  /-- It succeeds exactly if every registered name is described. -/
  succeeds_iff : (∃ definitions, outcome = .ok definitions) ↔
    ∀ name, registered name → ∃ definition, described name = .ok definition
  /-- Then each registered name has one definition, its own. -/
  complete : ∀ definitions, outcome = .ok definitions → ∀ name, registered name →
    ∃ definition ∈ definitions, described name = .ok definition ∧ definition.name = name ∧
      definition.extensionType = extensionType ∧
      ∀ other ∈ definitions, other.name = name → other = definition
  /-- And there is nothing else. -/
  sound : ∀ definitions, outcome = .ok definitions → ∀ definition ∈ definitions,
    registered definition.name
  /-- Otherwise it fails at the least name that is not described, with the cause of that one. -/
  fails_iff : ∀ error, outcome = .error error ↔ ∃ name cause,
    error = .extensionDefinition extensionType name cause ∧ registered name ∧
      described name = .error cause ∧
      ∀ other, registered other → other < name → ∃ definition, described other = .ok definition

namespace IsDiscovery

variable {registered : String → Prop} {described other : String → Except Error Definition}
  {outcome outcome' : Except Error (SortedSet Definition)}

/-- The definitions are those that the registered names are described as. -/
theorem mem_iff {definitions : SortedSet Definition}
    (discovery : IsDiscovery registered described extensionType (.ok definitions))
    {definition : Definition} : definition ∈ definitions ↔
      registered definition.name ∧ described definition.name = .ok definition := by
  constructor
  · intro member
    have listed := discovery.sound _ rfl definition member
    obtain ⟨own, -, yields, -, -, only⟩ := discovery.complete _ rfl _ listed
    have equal := only definition member rfl
    exact ⟨listed, by rw [yields, ← equal]⟩
  · rintro ⟨listed, yields⟩
    obtain ⟨own, member, yields', -⟩ := discovery.complete _ rfl _ listed
    rw [yields] at yields'
    cases yields'
    exact member

/-- The registered names and what they are described as leave one outcome. -/
theorem outcome_eq (discovery : IsDiscovery registered described extensionType outcome)
    (discovery' : IsDiscovery registered other extensionType outcome')
    (agree : ∀ name, registered name → other name = described name) : outcome' = outcome := by
  rcases outcome with error | definitions
  · obtain ⟨name, cause, rfl, listed, failed, earlier⟩ := (discovery.fails_iff error).mp rfl
    refine (discovery'.fails_iff _).mpr
      ⟨name, cause, rfl, listed, by rw [agree name listed, failed], fun before listed' below => ?_⟩
    rw [agree before listed']
    exact earlier before listed' below
  · have all := discovery.succeeds_iff.mp ⟨definitions, rfl⟩
    obtain ⟨definitions', rfl⟩ := discovery'.succeeds_iff.mpr fun name listed => by
      rw [agree name listed]
      exact all name listed
    congr 1
    refine SortedSet.ext_mem fun definition => ?_
    rw [discovery.mem_iff, discovery'.mem_iff]
    exact and_congr_right fun listed => by rw [agree _ listed]

end IsDiscovery

theorem isDiscovery (configured : survey.registrationPath? extensionType = some path)
    (readable : survey.IsReadable path) :
    IsDiscovery (survey.IsRegistered path) (survey.described extensionType) extensionType
      (survey.discover extensionType).outcome := by
  obtain ⟨names, listed, members⟩ := exists_classNames configured readable
  rw [← show (· ∈ names) = survey.IsRegistered path from funext fun name => propext (members name)]
  have member : ∀ definitions, (survey.discover extensionType).outcome = .ok definitions →
      ∀ definition, definition ∈ definitions ↔
        ∃ name ∈ names, survey.described extensionType name = .ok definition := by
    intro definitions discovered definition
    rw [mem_discovered_iff discovered listed]
    simp only [describe_eq_ok]
  refine ⟨exists_discover_iff listed, ?complete, ?sound, fun _ => discover_eq_error_iff listed⟩
  case complete =>
    intro definitions discovered name registered
    have all := (exists_discover_iff listed).mp ⟨definitions, discovered⟩
    obtain ⟨definition, yields⟩ := all name registered
    refine ⟨definition, (member _ discovered _).mpr ⟨name, registered, yields⟩, yields,
      name_of_described yields, type_of_described yields, fun other there same => ?_⟩
    obtain ⟨otherName, -, otherYields⟩ := (member _ discovered _).mp there
    rw [← name_of_described otherYields, same, yields] at otherYields
    exact (Except.ok.inj otherYields).symm
  case sound =>
    intro definitions discovered definition there
    obtain ⟨name, registered, yields⟩ := (member _ discovered _).mp there
    rw [name_of_described yields]
    exact registered

/-- **Discovery is a function of the registered names.** For every survey and every type with a
contract whose registration resources can all be read: discovery succeeds exactly if each registered
name is described, with one definition for each; otherwise it fails with the cause of the least name
that is not. Any other survey that registers the same names, wherever it lists them, and describes
them alike comes to the same. -/
theorem discover_registered (survey : Survey) {extensionType : ExtensionType} {path : String}
    (configured : survey.registrationPath? extensionType = some path)
    (readable : survey.IsReadable path) :
    IsDiscovery (survey.IsRegistered path) (survey.described extensionType) extensionType
        (survey.discover extensionType).outcome ∧
      ∀ (other : Survey) (otherPath : String),
        other.registrationPath? extensionType = some otherPath →
        other.IsReadable otherPath →
        (∀ name, other.IsRegistered otherPath name ↔ survey.IsRegistered path name) →
        (∀ name, survey.IsRegistered path name →
          other.described extensionType name = survey.described extensionType name) →
        (other.discover extensionType).outcome = (survey.discover extensionType).outcome := by
  have discovery := isDiscovery configured readable
  refine ⟨discovery, fun other otherPath configured' readable' same agree => ?_⟩
  have discovery' := isDiscovery configured' readable'
  rw [show other.IsRegistered otherPath = survey.IsRegistered path from
    funext fun name => propext (same name)] at discovery'
  exact discovery.outcome_eq discovery' agree

/-- The survey of two marked levels, with another registration at the inner one. -/
def relisted (registration : Bytes) : Survey :=
  let place := ["inner", "META-INF", "services", "P"]
  let entries := markedTree.entries.insert place (.file registration)
  { markedSurvey with tree := { markedTree with entries } }

/-- Directories can always be read. -/
theorem isReadable_relisted (registration : Bytes) (path : String) :
    (relisted registration).IsReadable path := by
  intro level member entry inside
  simp only [relisted, markedSurvey, markedAncestor, levels_child, levels_root, List.mem_cons,
    List.not_mem_nil, or_false] at member
  rcases member with rfl | rfl <;>
    (cases List.mem_singleton.mp inside; exact ⟨_, rfl⟩)

/-- The outer level lists `A`. The inner one lists `Z`, `Y`, `A` and `Y` again, among blanks and a
comment, which is as good as `Y` and `Z`. No level holds either, so discovery fails at `Y`. -/
theorem discover_registered_relisted :
    let survey := relisted [35, 65, 10, 32, 90, 9, 10, 10, 89, 13, 10, 65, 10, 89]
    let other := relisted [89, 10, 90]
    let path := "META-INF/services/P"
    survey.registrationPath? .processor = some path ∧ survey.IsReadable path ∧
      (survey.discover .processor).outcome =
        .error (.extensionDefinition .processor "Y" (.classNotFound "Y")) ∧
      (other.discover .processor).outcome = (survey.discover .processor).outcome := by
  intro survey other path
  have configured : survey.registrationPath? .processor = some path := by decide +kernel
  have configured' : other.registrationPath? .processor = some path := by decide +kernel
  have readable : survey.IsReadable path := isReadable_relisted _ _
  have readable' : other.IsReadable path := isReadable_relisted _ _
  have members : ∀ name, survey.IsRegistered path name ↔ name ∈ ["A", "Y", "Z"] :=
    isRegistered_iff_mem configured readable (by decide +kernel)
  have members' : ∀ name, other.IsRegistered path name ↔ name ∈ ["A", "Y", "Z"] :=
    isRegistered_iff_mem configured' readable' (by decide +kernel)
  have alike : ∀ name ∈ ["A", "Y", "Z"],
      other.described .processor name = survey.described .processor name := by decide +kernel
  have described : (survey.described .processor "A").toOption.isSome := by decide +kernel
  have missing : survey.described .processor "Y" = .error (.classNotFound "Y") := by decide +kernel
  have discovery := discover_registered survey configured readable
  refine ⟨configured, readable, (discovery.1.fails_iff _).mpr ⟨"Y", _, rfl, (members _).mpr
    (by decide), missing, fun name registered below => ?_⟩, ?_⟩
  · obtain ⟨definition, yields⟩ := Option.isSome_iff_exists.mp described
    have first : name = "A" := by
      simp only [members, List.mem_cons, List.not_mem_nil, or_false] at registered
      rcases registered with rfl | rfl | rfl
      · rfl
      all_goals exact absurd below (by decide)
    rw [first]
    exact ⟨definition, Outcome.eq_ok_of_toOption yields⟩
  · refine discovery.2 other path configured' readable' (fun name => ?_) fun name registered => ?_
    · rw [members', members]
    · exact alike name ((members name).mp registered)

end Survey

end ExtensionCatalog
