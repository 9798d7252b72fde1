/-
**Settings files: what is read, and what a run can use.**

Contracts are merged while a file is read, so a type that the file lists twice has one contract
before anybody looks: the last one. What makes a file unusable is something else.

* `load_eq_ok_iff`, `loadFrom_eq_ok_iff`: when settings are loaded, from a file that is there or
  from one that is made;
* `listedContracts?`: the contracts that a document lists;
* `contracts_of_listed`: what becomes of them;
* `IsUsable`: what a run asks of settings besides their contracts being distinct;
* `load_listed`: **which files with contracts are loaded**.
-/

import ExtensionCatalog.Proofs.Settings.Faults
import ExtensionCatalog.Proofs.Text.Utf8
import ExtensionCatalog.Settings.Load

namespace ExtensionCatalog

open Contract Document FileTree

theorem Document.Record.withDefault_of_find? {α : Type} {record : Record} {name : String}
    {place : Nat} {document : Document} (given : record.find? name place = some document)
    (read : Document → Option α) (default : α) :
    record.withDefault name place read default = read document := by
  rw [withDefault, given]

namespace Settings

/-! ### When settings are loaded -/

theorem checked_eq_ok_iff {settings found : Settings} :
    settings.checked = .ok found ↔ settings.validate = .ok () ∧ settings = found := by
  unfold checked
  cases settings.validate <;> simp

theorem load_eq_ok_iff {tree : FileTree} {path : FilePath} {settings : Settings} :
    load tree path = .ok settings ↔ ∃ text, tree.readText? path = some text ∧
      ofToml? text = some settings ∧ settings.validate = .ok () := by
  unfold load
  cases tree.readText? path with
  | none => simp
  | some content =>
    cases parsed : ofToml? content with
    | none => simp [parsed]
    | some found =>
      simp only [checked_eq_ok_iff, Option.some.injEq, exists_eq_left', parsed]
      constructor
      · rintro ⟨valid, rfl⟩
        exact ⟨rfl, valid⟩
      · rintro ⟨rfl, valid⟩
        exact ⟨valid, rfl⟩

/-- Settings are refused for what validation reports. -/
theorem load_eq_unusable_iff {tree : FileTree} {path : FilePath} {fault : SettingsFault} :
    load tree path = .error (.unusable fault) ↔ ∃ text settings,
      tree.readText? path = some text ∧ ofToml? text = some settings ∧
        settings.validate = .error fault := by
  unfold load
  cases tree.readText? path with
  | none => simp
  | some content =>
    cases parsed : ofToml? content with
    | none => simp [parsed]
    | some settings =>
      unfold checked
      cases checked : settings.validate <;> simp [parsed, checked]

/-- The usual file is loaded as it stands, or as it is made. -/
theorem loadFrom_eq_ok_iff {tree : FileTree} {path : FilePath} {changes : List Change}
    {found : Settings} :
    (loadFrom tree path).changes = changes ∧ (loadFrom tree path).outcome = .ok found ↔
      (tree.exists? path = true ∧ changes = [] ∨ tree.exists? path = false ∧
        changes = defaultFile path ∧ (tree.applyAll changes).2 = true) ∧
      load (tree.applyAll changes).1 path = .ok found := by
  unfold loadFrom
  split
  · next present =>
    constructor
    · rintro ⟨rfl, loaded⟩
      exact ⟨.inl ⟨present, rfl⟩, loaded⟩
    · rintro ⟨⟨-, rfl⟩ | ⟨missing, -⟩, loaded⟩
      · exact ⟨rfl, loaded⟩
      · rw [present] at missing
        cases missing
  · next missing =>
    rw [Bool.not_eq_true] at missing
    dsimp only
    split
    · next possible =>
      constructor
      · rintro ⟨rfl, loaded⟩
        exact ⟨.inr ⟨missing, rfl, possible⟩, loaded⟩
      · rintro ⟨⟨present, -⟩ | ⟨-, rfl, -⟩, loaded⟩
        · rw [missing] at present
          cases present
        · exact ⟨rfl, loaded⟩
    · next impossible =>
      refine iff_of_false ?_ ?_
      · rintro ⟨-, loaded⟩
        split at loaded <;> cases loaded
      · rintro ⟨⟨present, -⟩ | ⟨-, rfl, possible⟩, -⟩
        · rw [missing] at present
          cases present
        · exact impossible possible

/-! ### Listed contracts -/

/-- The contracts that a document of settings lists. -/
def listedContracts? (dialect : Dialect) (document : Document) : Option (List Contract) := do
  let settings ← document.record dialect 5
  let discovery ← (← settings.find? "discovery" 3).record dialect 4
  readList (Contract.ofDocument? dialect) (← discovery.find? "contracts" 1)

variable {dialect : Dialect} {document : Document} {settings : Settings}
  {configured : List Contract}

/-- **Listed contracts are merged** as they are read. -/
theorem contracts_of_listed (read : ofDocument? dialect document = some settings)
    (listed : listedContracts? dialect document = some configured) :
    settings.discovery.contracts = mergeContracts configured := by
  simp only [listedContracts?, Option.bind_eq_bind, Option.bind_eq_some_iff] at listed
  obtain ⟨record, opened, table, given, fields, inner, contracts, found, listed⟩ := listed
  have discovered : DiscoverySettings.ofDocument? dialect table = some settings.discovery := by
    simp only [ofDocument?, opened, Record.withDefault_of_find? given, Option.bind_eq_bind,
      Option.bind_some, Option.bind_eq_some_iff] at read
    obtain ⟨_, _, _, _, _, _, discovery, discovered, _, _, equal⟩ := read
    cases equal
    exact discovered
  simp only [DiscoverySettings.ofDocument?, inner, Record.withDefault_of_find? found, listed,
    Option.bind_eq_bind, Option.bind_some, Option.bind_eq_some_iff] at discovered
  obtain ⟨_, _, _, merged, _, _, _, _, equal⟩ := discovered
  cases merged
  rw [← Option.some.inj equal]

/-- What a run asks of settings besides their contracts being distinct: of the listed contracts,
those that are the last ones of their types have to name an interface. -/
structure IsUsable (settings : Settings) (configured : List Contract) : Prop where
  logLevel : settings.logLevel ∈ logLevels
  filled : ∀ field ∈ settings.requiredTexts, Text.isBlankText field.2 = false
  named : ∀ extensionType interface, IsLast configured extensionType interface →
    Text.isBlankText interface = false
  formats : settings.output.formats ≠ []

theorem isBlankText_of_mem_defaultContracts {contract : Contract}
    (default : contract ∈ defaultContracts) : Text.isBlankText contract.interface = false := by
  revert contract
  decide

theorem documented_subset : ExtensionType.documented ⊆ types defaultContracts := by decide

/-- Merged contracts leave only the last ones to look at. -/
theorem validate_eq_ok_iff_isUsable
    (merged : settings.discovery.contracts = mergeContracts configured) :
    settings.validate = .ok () ↔ settings.IsUsable configured := by
  rw [validate_eq_ok_iff]
  constructor
  · intro fine
    refine ⟨?level, ?filled, ?named, fun none => fine _ (.noFormats none)⟩
    case level =>
      by_contra unknown
      exact fine _ (.unknownLogLevel unknown)
    case filled =>
      intro field required
      by_contra blank
      exact fine _ (.blankField required (eq_true_of_ne_false blank))
    case named =>
      intro extensionType interface last
      by_contra blank
      have member : ⟨extensionType, interface⟩ ∈ mergeContracts configured :=
        mem_mergeContracts_iff.mpr (.inl last)
      exact fine _ (.blankContract (merged ▸ member) (eq_true_of_ne_false blank))
  · intro usable fault wrong
    cases wrong with
    | unknownLogLevel unknown => exact unknown usable.logLevel
    | blankField required blank => simp [usable.filled _ required] at blank
    | mappedTwice twice =>
      exact not_hasFault_mappedTwice (merged ▸ nodup_mergeContracts configured) _
        (.mappedTwice twice)
    | blankContract member blank =>
      rw [merged, mem_mergeContracts_iff] at member
      rcases member with last | ⟨-, default⟩
      · simp [usable.named _ _ last] at blank
      · simp [isBlankText_of_mem_defaultContracts default] at blank
    | unmapped documented missing =>
      rw [merged, mem_types_mergeContracts_iff, not_or] at missing
      exact missing.1 (documented_subset documented)
    | noFormats none => exact usable.formats none

/-- **Which files with contracts are loaded.** Where a file lists contracts, its settings are loaded
exactly if a run can use them and, of the contracts, the last one of each type names an interface.
What is loaded is the list as it is merged. So a type with two contracts is never reported, although
validation refuses any settings that hold two. -/
theorem load_listed {tree : FileTree} {path : FilePath} {content : String}
    (read : tree.readText? path = some content) (parsed : Toml.parse? content = some document)
    (listed : listedContracts? .toml document = some configured) :
    (∀ settings, load tree path = .ok settings ↔
      ofDocument? .toml document = some settings ∧ settings.IsUsable configured) ∧
    (∀ settings, load tree path = .ok settings →
      settings.discovery.contracts = mergeContracts configured) ∧
    (∀ extensionType, load tree path ≠ .error (.unusable (.mappedTwice extensionType))) ∧
    ∀ (settings : Settings) (extensionType : ExtensionType),
      2 ≤ (types settings.discovery.contracts).count extensionType →
        ∃ fault, settings.validate = .error fault := by
  have loaded settings : load tree path = .ok settings ↔
      ofDocument? .toml document = some settings ∧ settings.IsUsable configured := by
    simp only [load_eq_ok_iff, read, Option.some.injEq, exists_eq_left', ofToml?, parsed,
      Option.bind_eq_bind, Option.bind_some]
    exact and_congr_right fun given =>
      validate_eq_ok_iff_isUsable (contracts_of_listed given listed)
  refine ⟨loaded, ?merged, ?never, ?refused⟩
  case merged =>
    intro settings success
    exact contracts_of_listed ((loaded settings).mp success).1 listed
  case never =>
    intro extensionType failed
    obtain ⟨text, settings, same, given, reported⟩ := load_eq_unusable_iff.mp failed
    rw [read, Option.some.injEq] at same
    rw [← same, ofToml?, parsed] at given
    have merged := contracts_of_listed given listed
    exact not_hasFault_mappedTwice (merged ▸ nodup_mergeContracts configured) extensionType
      (hasFault_of_validate reported)
  case refused =>
    intro settings extensionType twice
    rcases Outcome.ok_or_error settings.validate with ⟨⟨⟩, fine⟩ | failed
    · exact absurd (.mappedTwice twice) (validate_eq_ok_iff.mp fine _)
    · exact failed

/-- A settings file with two contracts for processors. -/
def repeatedText (first last : String) : String :=
  "[[discovery.contracts]]\nextension_type = 'processor'\ninterface = '" ++ first ++ "'\n" ++
  "[[discovery.contracts]]\nextension_type = 'processor'\ninterface = '" ++ last ++ "'\n"

def repeatedTree (first last : String) : FileTree where
  entries := .ofList [(["s"], .file (Text.Utf8.encode (repeatedText first last).toList))]
  workingDirectory := []

theorem readText?_repeatedTree (first last : String) :
    (repeatedTree first last).readText? ⟨"/s"⟩ = some (repeatedText first last) := by
  have content : (repeatedTree first last).read? ⟨"/s"⟩ =
      some (Text.Utf8.encode (repeatedText first last).toList) := rfl
  rw [readText?, content]
  simp [Text.Utf8.decode?_encode]

/-- Two contracts for processors are refused if the second one names no interface. -/
theorem load_listed_blank :
    (repeatedTree "A" " ").readText? ⟨"/s"⟩ = some (repeatedText "A" " ") ∧
    Toml.parse? (repeatedText "A" " ") >>= listedContracts? .toml =
      some [⟨.processor, "A"⟩, ⟨.processor, " "⟩] ∧
    (∀ settings, load (repeatedTree "A" " ") ⟨"/s"⟩ ≠ .ok settings) ∧
    load (repeatedTree "A" " ") ⟨"/s"⟩ ≠ .error (.unusable (.mappedTwice .processor)) := by
  have read := readText?_repeatedTree "A" " "
  have both : Toml.parse? (repeatedText "A" " ") >>= listedContracts? .toml =
      some [⟨.processor, "A"⟩, ⟨.processor, " "⟩] := by
    decide +kernel
  obtain ⟨document, parsed, listed⟩ := Option.bind_eq_some_iff.mp both
  obtain ⟨loaded, -, never, -⟩ := load_listed read parsed listed
  refine ⟨read, both, fun settings success => ?_, never .processor⟩
  have last : IsLast [⟨.processor, "A"⟩, ⟨.processor, " "⟩] .processor " " :=
    ⟨[⟨.processor, "A"⟩], [], rfl, by decide⟩
  have filled := ((loaded settings).mp success).2.named .processor " " last
  revert filled
  decide

/-- A file with two contracts for processors is loaded. -/
theorem load_repeated :
    ¬ ∀ (tree : FileTree) (path : FilePath) (content : String) (document : Document)
      (configured : List Contract) (extensionType : ExtensionType),
      tree.readText? path = some content → Toml.parse? content = some document →
      listedContracts? .toml document = some configured →
      2 ≤ (types configured).count extensionType → ∃ error, load tree path = .error error := by
  intro refused
  have read := readText?_repeatedTree "A" "B"
  have both : Toml.parse? (repeatedText "A" "B") >>= listedContracts? .toml =
      some [⟨.processor, "A"⟩, ⟨.processor, "B"⟩] := by
    decide +kernel
  obtain ⟨document, parsed, listed⟩ := Option.bind_eq_some_iff.mp both
  obtain ⟨error, failed⟩ := refused _ _ _ document _ .processor read parsed listed (by decide)
  have valid : (ofToml? (repeatedText "A" "B")).map validate = some (.ok ()) := by decide +kernel
  obtain ⟨settings, given, valid⟩ := Option.map_eq_some_iff.mp valid
  rw [load_eq_ok_iff.mpr ⟨_, read, given, valid⟩] at failed
  cases failed

end Settings

end ExtensionCatalog
