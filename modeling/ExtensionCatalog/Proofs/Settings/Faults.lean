/-
**What can be wrong with settings.**

A run can use settings if nothing is wrong with them, and otherwise it is told one thing that is.

* `Outcome.refuse`: a check that refuses the first offending item;
* `HasFault`: what is wrong with settings;
* `validate_eq`: validation as checks in a row;
* `checkContracts_eq_ok_iff`, `of_checkContracts_eq_error`: the check of the contracts;
* `hasFault_of_validate`: **what validation reports is wrong**;
* `validate_eq_ok_iff`: **validation reports something exactly if something is wrong**;
* `exists_contract`: what valid settings hold for each documented type.
-/

import ExtensionCatalog.Proofs.Outcome
import ExtensionCatalog.Proofs.Settings.Contracts
import ExtensionCatalog.Settings.Basic

namespace ExtensionCatalog

/-! ### Refusing items -/

namespace Outcome

variable {ε α β : Type}

/-- Refuse the first item of a kind, if there is one. -/
def refuse (kind : α → Bool) (fault : α → ε) (items : List α) : Except ε Unit :=
  match items.find? kind with
  | some item => .error (fault item)
  | none => .ok ()

variable {kind : α → Bool} {fault : α → ε} {items : List α}

theorem refuse_eq_ok_iff :
    refuse kind fault items = .ok () ↔ ∀ item ∈ items, kind item = false := by
  unfold refuse
  split
  · next item found =>
    refine iff_of_false (fun equal => by cases equal) fun each => ?_
    have offends := List.find?_some found
    rw [each item (List.mem_of_find?_eq_some found)] at offends
    cases offends
  · next none => simpa using none

theorem of_refuse_eq_error {reported : ε} (refused : refuse kind fault items = .error reported) :
    ∃ item ∈ items, kind item = true ∧ reported = fault item := by
  unfold refuse at refused
  split at refused
  · next item found =>
    cases refused
    exact ⟨item, List.mem_of_find?_eq_some found, List.find?_some found, rfl⟩
  · cases refused

theorem check_bind_eq_ok_iff {check : Except ε Unit} {next : Except ε β} {result : β} :
    (check >>= fun _ => next) = .ok result ↔ check = .ok () ∧ next = .ok result := by
  rw [bind_eq_ok_iff]
  exact ⟨fun ⟨(), passes, yields⟩ => ⟨passes, yields⟩, fun both => ⟨(), both⟩⟩

theorem refuse_singleton (kind : α → Bool) (fault : α → ε) (item : α) :
    refuse kind fault [item] = if kind item = true then .error (fault item) else .ok () := by
  cases offends : kind item <;> simp [refuse, offends]

/-- A loop that does nothing but refuse items. -/
theorem forIn_eq_refuse (kind : α → Bool) (fault : α → ε) (items : List α) :
    (forIn items () fun item _ =>
      if kind item = true then do
        throw (fault item)
        pure (ForInStep.yield ())
      else pure (ForInStep.yield ())) = refuse kind fault items := by
  induction items with
  | nil => rfl
  | cons item rest hypothesis =>
    rw [List.forIn_cons, refuse, List.find?_cons]
    cases kind item with
    | true => rfl
    | false => exact hypothesis

end Outcome

open Outcome Contract

namespace Settings

variable {settings : Settings} {fault : SettingsFault} {mapped : List ExtensionType}
  {contracts : List Contract}

/-- What is wrong with settings. -/
inductive HasFault (settings : Settings) : SettingsFault → Prop
  | unknownLogLevel (unknown : settings.logLevel ∉ logLevels) :
      HasFault settings (.unknownLogLevel settings.logLevel)
  | blankField {field content : String} (required : (field, content) ∈ settings.requiredTexts)
      (blank : Text.isBlankText content = true) : HasFault settings (.blankField field)
  | mappedTwice {extensionType : ExtensionType}
      (twice : 2 ≤ (types settings.discovery.contracts).count extensionType) :
      HasFault settings (.mappedTwice extensionType)
  | blankContract {contract : Contract} (member : contract ∈ settings.discovery.contracts)
      (blank : Text.isBlankText contract.interface = true) :
      HasFault settings (.blankContract contract.extensionType)
  | unmapped {extensionType : ExtensionType} (documented : extensionType ∈ ExtensionType.documented)
      (missing : extensionType ∉ types settings.discovery.contracts) :
      HasFault settings (.unmapped extensionType)
  | noFormats (none : settings.output.formats = []) : HasFault settings .noFormats

theorem not_hasFault_mappedTwice (distinct : (types settings.discovery.contracts).Nodup)
    (extensionType : ExtensionType) : ¬ settings.HasFault (.mappedTwice extensionType) := by
  rintro ⟨⟩
  have once := List.nodup_iff_count_le_one.mp distinct extensionType
  omega

/-! ### Contracts -/

theorem checkContracts_eq_ok_iff : checkContracts mapped contracts = .ok () ↔
    (types contracts).Nodup ∧ (∀ extensionType ∈ types contracts, extensionType ∉ mapped) ∧
      ∀ contract ∈ contracts, Text.isBlankText contract.interface = false := by
  induction contracts generalizing mapped with
  | nil => simp [checkContracts]
  | cons first rest hypothesis =>
    rw [checkContracts]
    split
    · next known => simp [known]
    split
    · next blank => simp [blank]
    · next new filled =>
      rw [Bool.not_eq_true] at filled
      simp only [hypothesis, types_cons, List.nodup_cons, List.forall_mem_cons, new, filled,
        not_false_eq_true, true_and]
      constructor
      · rintro ⟨distinct, apart, others⟩
        exact ⟨⟨fun again => apart _ again List.mem_cons_self, distinct⟩, fun other member known =>
          apart other member (List.mem_cons_of_mem _ known), others⟩
      · rintro ⟨⟨absent, distinct⟩, apart, others⟩
        refine ⟨distinct, fun other member known => ?_, others⟩
        rcases List.mem_cons.mp known with rfl | known
        · exact absent member
        · exact apart other member known

/-- A contract is reported if one before it has its type, or if its interface is blank. -/
theorem of_checkContracts_eq_error (failed : checkContracts mapped contracts = .error fault) :
    (∃ extensionType, fault = .mappedTwice extensionType ∧
      2 ≤ (mapped ++ types contracts).count extensionType) ∨
    ∃ contract ∈ contracts, Text.isBlankText contract.interface = true ∧
      fault = .blankContract contract.extensionType := by
  induction contracts generalizing mapped with
  | nil => cases failed
  | cons first rest hypothesis =>
    rw [checkContracts] at failed
    split at failed
    · next known =>
      cases failed
      refine .inl ⟨first.extensionType, rfl, ?_⟩
      rw [types_cons, List.count_append, List.count_cons_self]
      have := List.count_pos_iff.mpr known
      omega
    split at failed
    · next blank =>
      cases failed
      exact .inr ⟨first, List.mem_cons_self, blank, rfl⟩
    -- The type of the first contract moves from the contracts to the types before.
    · rcases hypothesis failed with ⟨extensionType, equal, twice⟩ | ⟨contract, member, rest⟩
      · refine .inl ⟨extensionType, equal, ?_⟩
        rwa [types_cons, List.perm_middle.count_eq]
      · exact .inr ⟨contract, List.mem_cons_of_mem _ member, rest⟩

/-! ### All checks -/

/-- **Validation** is a row of checks. -/
theorem validate_eq (settings : Settings) : settings.validate = (do
    refuse (· ∉ logLevels) .unknownLogLevel [settings.logLevel]
    refuse (fun field => Text.isBlankText field.2) (fun field => .blankField field.1)
      settings.requiredTexts
    checkContracts [] settings.discovery.contracts
    refuse (fun extensionType => (settings.discovery.contract? extensionType).isNone) .unmapped
      ExtensionType.documented
    refuse List.isEmpty (fun _ => .noFormats) [settings.output.formats]) := by
  rw [refuse_singleton, refuse_singleton]
  simp only [validate, ← forIn_eq_refuse]
  by_cases known : settings.logLevel ∈ logLevels
  · simp only [known, not_true_eq_false, decide_false, if_false, Bool.false_eq_true]
    rfl
  · simp only [known, not_false_eq_true, decide_true, if_true]
    rfl

/-- **What validation reports is wrong.** -/
theorem hasFault_of_validate (failed : settings.validate = .error fault) :
    settings.HasFault fault := by
  simp only [validate_eq, bind_eq_error_iff] at failed
  rcases failed with level | ⟨-, -, blank | ⟨-, -, contract | ⟨-, -, missing | ⟨-, -, formats⟩⟩⟩⟩
  · obtain ⟨level, given, unknown, rfl⟩ := of_refuse_eq_error level
    rw [List.mem_singleton.mp given] at unknown ⊢
    exact .unknownLogLevel (of_decide_eq_true unknown)
  · obtain ⟨field, required, empty, rfl⟩ := of_refuse_eq_error blank
    exact .blankField required empty
  · rcases of_checkContracts_eq_error contract with
      ⟨extensionType, rfl, twice⟩ | ⟨contract, member, blank, rfl⟩
    · exact .mappedTwice twice
    · exact .blankContract member blank
  · obtain ⟨extensionType, documented, none, rfl⟩ := of_refuse_eq_error missing
    exact .unmapped documented (lookup_eq_none_iff.mp (Option.isNone_iff_eq_none.mp none))
  · obtain ⟨formats, given, empty, rfl⟩ := of_refuse_eq_error formats
    rw [List.mem_singleton.mp given] at empty
    exact .noFormats (List.isEmpty_iff.mp empty)

/-- **Validation reports something exactly if something is wrong.** -/
theorem validate_eq_ok_iff : settings.validate = .ok () ↔ ∀ fault, ¬ settings.HasFault fault := by
  constructor
  · intro usable fault wrong
    simp only [validate_eq, check_bind_eq_ok_iff, refuse_eq_ok_iff, checkContracts_eq_ok_iff]
      at usable
    obtain ⟨level, filled, ⟨distinct, -, named⟩, mapped, formats⟩ := usable
    cases wrong with
    | unknownLogLevel unknown => simp [unknown] at level
    | blankField required blank => simp [filled _ required] at blank
    | mappedTwice twice => exact not_hasFault_mappedTwice distinct _ (.mappedTwice twice)
    | blankContract member blank => simp [named _ member] at blank
    | unmapped documented missing =>
      have found := mapped _ documented
      rw [Option.isNone_eq_false_iff, Option.isSome_iff_ne_none] at found
      exact found (lookup_eq_none_iff.mpr missing)
    | noFormats none => simp [none] at formats
  · intro fine
    rcases ok_or_error settings.validate with ⟨⟨⟩, usable⟩ | ⟨fault, failed⟩
    · exact usable
    · exact absurd (hasFault_of_validate failed) (fine fault)

/-- **Each documented type has a contract that names an interface**, if validation reports
nothing. -/
theorem exists_contract (valid : settings.validate = .ok ()) {extensionType : ExtensionType}
    (documented : extensionType ∈ ExtensionType.documented) :
    ∃ interface, settings.discovery.contract? extensionType = some interface ∧
      Text.isBlankText interface = false := by
  have fine := validate_eq_ok_iff.mp valid
  have present : settings.discovery.contract? extensionType ≠ none := fun absent =>
    fine _ (.unmapped documented (lookup_eq_none_iff.mp absent))
  obtain ⟨interface, found⟩ := Option.ne_none_iff_exists'.mp present
  refine ⟨interface, found, eq_false_of_ne_true fun blank => ?_⟩
  exact fine _ (.blankContract (mem_of_lookup found) blank)

end Settings

end ExtensionCatalog
