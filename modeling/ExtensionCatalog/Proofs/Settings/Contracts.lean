/-
**Configured contracts in the places of the default ones.**

Contracts are put in one after the other, each in the place of the one of its type or at the end. So
no type ever has two, and what counts for a type is what was put in last.

* `types`, `lookup`: the types that contracts are for, and the interface of a type;
* `IsLast`: the interface in the last of some contracts that are for a type;
* `types_replaceContract`, `lookup_replaceContract`: one contract is put in;
* `types_putAll`, `lookup_putAll_eq_some_iff`: contracts are put in one after the other;
* `eq_of_lookup`: contracts of distinct types are told by their types and lookups;
* `mem_mergeContracts_iff`, `mergeContracts_mergeContracts`: the default contracts are merged;
* `mergeContracts_answers`: **what the default contracts become**.
-/

import Mathlib.Data.List.Nodup
import ExtensionCatalog.Settings.Discovery

namespace ExtensionCatalog

namespace Contract

/-- The types that contracts are for, in order. -/
def types (contracts : List Contract) : List ExtensionType := contracts.map (·.extensionType)

/-- The interface of a type: that of the first contract for it. -/
def lookup (contracts : List Contract) (extensionType : ExtensionType) : Option String :=
  (contracts.find? (·.extensionType == extensionType)).map (·.interface)

/-- Whether this is the interface in the last of the contracts that are for a type. -/
def IsLast (contracts : List Contract) (extensionType : ExtensionType) (interface : String) :
    Prop :=
  ∃ before after, contracts = before ++ ⟨extensionType, interface⟩ :: after ∧
    extensionType ∉ types after

/-- Contracts with others put in their places, one after the other. -/
def putAll (contracts configured : List Contract) : List Contract :=
  configured.foldl (fun contracts contract => replaceContract contract contracts) contracts

variable {contract first : Contract} {contracts rest others configured : List Contract}
  {extensionType : ExtensionType} {interface : String}

@[simp] theorem types_nil : types [] = [] := rfl

@[simp] theorem types_cons : types (first :: rest) = first.extensionType :: types rest := rfl

@[simp] theorem types_append : types (contracts ++ others) = types contracts ++ types others :=
  List.map_append

theorem lookup_cons : lookup (first :: rest) extensionType =
    if first.extensionType = extensionType then some first.interface
    else lookup rest extensionType := by
  rw [lookup]
  split
  · next same => rw [List.find?_cons_of_pos (by simpa using same), Option.map_some]
  · next other => rw [List.find?_cons_of_neg (by simpa using other), lookup]

/-- A type has an interface exactly if there is a contract for it. -/
theorem lookup_eq_none_iff :
    lookup contracts extensionType = none ↔ extensionType ∉ types contracts := by
  rw [lookup, Option.map_eq_none_iff, List.find?_eq_none, types, List.mem_map]
  simp

/-! ### The last contract of a type -/

theorem isLast_cons_iff : IsLast (first :: rest) extensionType interface ↔
    IsLast rest extensionType interface ∨
      extensionType ∉ types rest ∧ first = ⟨extensionType, interface⟩ := by
  constructor
  · rintro ⟨_ | ⟨head, before⟩, after, place, absent⟩
    · cases place
      exact .inr ⟨absent, rfl⟩
    · cases place
      exact .inl ⟨before, after, rfl, absent⟩
  · rintro (⟨before, after, rfl, absent⟩ | ⟨absent, rfl⟩)
    · exact ⟨first :: before, after, rfl, absent⟩
    · exact ⟨[], rest, rfl, absent⟩

theorem IsLast.mem (last : IsLast contracts extensionType interface) :
    ⟨extensionType, interface⟩ ∈ contracts := by
  obtain ⟨before, after, rfl, -⟩ := last
  exact List.mem_append_right _ List.mem_cons_self

theorem mem_types (member : contract ∈ contracts) : contract.extensionType ∈ types contracts :=
  List.mem_map_of_mem member

/-- What is found is there. -/
theorem mem_of_lookup (found : lookup contracts extensionType = some interface) :
    ⟨extensionType, interface⟩ ∈ contracts := by
  obtain ⟨contract, first, rfl⟩ := Option.map_eq_some_iff.mp found
  have same : contract.extensionType = extensionType := by simpa using List.find?_some first
  rw [← same]
  exact List.mem_of_find?_eq_some first

section Distinct

variable (distinct : (types contracts).Nodup)

include distinct

/-- Where types are distinct, every contract is the last one of its type. -/
theorem isLast_iff_mem :
    IsLast contracts extensionType interface ↔ ⟨extensionType, interface⟩ ∈ contracts := by
  refine ⟨IsLast.mem, fun member => ?_⟩
  obtain ⟨before, after, rfl⟩ := List.append_of_mem member
  rw [types_append, types_cons, List.nodup_append] at distinct
  exact ⟨before, after, rfl, (List.nodup_cons.mp distinct.2.1).1⟩

/-- Where types are distinct, every contract is found. -/
theorem lookup_eq_some_iff_mem :
    lookup contracts extensionType = some interface ↔ ⟨extensionType, interface⟩ ∈ contracts := by
  refine ⟨mem_of_lookup, fun member => ?_⟩
  have present : lookup contracts extensionType ≠ none := fun absent =>
    lookup_eq_none_iff.mp absent (mem_types member)
  obtain ⟨other, found⟩ := Option.ne_none_iff_exists'.mp present
  cases List.inj_on_of_nodup_map distinct member (mem_of_lookup found) rfl
  exact found

end Distinct

/-! ### One contract is put in -/

/-- A contract of a new type comes last, and one of a known type changes no type. -/
theorem types_replaceContract (contract : Contract) (contracts : List Contract) :
    types (replaceContract contract contracts) =
      if contract.extensionType ∈ types contracts then types contracts
      else types contracts ++ [contract.extensionType] := by
  induction contracts with
  | nil => rfl
  | cons first rest hypothesis =>
    rw [replaceContract]
    by_cases same : first.extensionType = contract.extensionType
    · simp [same]
    · rw [if_neg same, types_cons, hypothesis]
      simp only [types_cons, List.mem_cons, Ne.symm same, false_or]
      split <;> simp

/-- What is put in is found. -/
theorem lookup_replaceContract (contract : Contract) (contracts : List Contract)
    (extensionType : ExtensionType) :
    lookup (replaceContract contract contracts) extensionType =
      if contract.extensionType = extensionType then some contract.interface
      else lookup contracts extensionType := by
  induction contracts with
  | nil => simp [replaceContract, lookup_cons]
  | cons first rest hypothesis =>
    rw [replaceContract]
    by_cases same : first.extensionType = contract.extensionType
    · rw [if_pos same, lookup_cons, lookup_cons, same]
      split <;> rfl
    · rw [if_neg same, lookup_cons, hypothesis, lookup_cons]
      split
      · next other => rw [if_neg (fun equal => same (other.trans equal.symm))]
      · rfl

/-- **No type gets a second contract.** -/
theorem nodup_replaceContract (contract : Contract) (distinct : (types contracts).Nodup) :
    (types (replaceContract contract contracts)).Nodup := by
  rw [types_replaceContract]
  split
  · exact distinct
  · next new => exact distinct.append (List.nodup_singleton _) (by simpa using new)

/-! ### Contracts are put in one after the other -/

theorem nodup_putAll (distinct : (types contracts).Nodup) (configured : List Contract) :
    (types (putAll contracts configured)).Nodup := by
  induction configured generalizing contracts with
  | nil => exact distinct
  | cons first rest hypothesis => exact hypothesis (nodup_replaceContract first distinct)

/-- **The types that were there keep their places**, and new ones follow in the order in which they
appear first. -/
theorem types_putAll (contracts configured : List Contract) :
    types (putAll contracts configured) = types contracts ++
      ((types configured).filter (· ∉ types contracts)).eraseDups := by
  induction configured generalizing contracts with
  | nil => simp [putAll]
  | cons first rest hypothesis =>
    rw [putAll, List.foldl_cons, ← putAll, hypothesis, types_replaceContract, types_cons]
    by_cases known : first.extensionType ∈ types contracts
    · rw [if_pos known, List.filter_cons_of_neg (by simpa using known)]
    · rw [if_neg known, List.filter_cons_of_pos (by simpa using known), List.eraseDups_cons,
        List.filter_filter, List.append_assoc, List.singleton_append]
      congr 3
      refine List.filter_congr fun other _ => ?_
      simp [beq_eq_decide, Bool.and_comm]

/-- A list without repetitions is left alone when repetitions are taken out. -/
theorem eraseDups_of_nodup {types : List ExtensionType} (distinct : types.Nodup) :
    types.eraseDups = types := by
  induction types with
  | nil => rfl
  | cons first rest hypothesis =>
    obtain ⟨absent, distinct⟩ := List.nodup_cons.mp distinct
    have apart : rest.filter (fun other => !other == first) = rest := by
      refine List.filter_eq_self.mpr fun other member => ?_
      have different : other ≠ first := fun same => absent (same ▸ member)
      simpa using different
    rw [List.eraseDups_cons, apart, hypothesis distinct]

/-- Contracts that go on where others end keep their types when they are put in there. -/
theorem types_putAll_of_prefix (distinct : (types configured).Nodup)
    (continued : types contracts <+: types configured) :
    types (putAll contracts configured) = types configured := by
  obtain ⟨new, whole⟩ := continued
  rw [← whole] at distinct
  obtain ⟨-, distinct, apart⟩ := List.nodup_append.mp distinct
  have known : (types contracts).filter (· ∉ types contracts) = [] := by simp
  have unknown : new.filter (· ∉ types contracts) = new :=
    List.filter_eq_self.mpr fun extensionType member =>
      decide_eq_true fun inside => apart extensionType inside extensionType member rfl
  rw [types_putAll, ← whole, List.filter_append, known, unknown, List.nil_append,
    eraseDups_of_nodup distinct]

/-- **What was put in last counts.** -/
theorem lookup_putAll_eq_some_iff :
    lookup (putAll contracts configured) extensionType = some interface ↔
      IsLast configured extensionType interface ∨
        extensionType ∉ types configured ∧ lookup contracts extensionType = some interface := by
  induction configured generalizing contracts with
  | nil => simp [putAll, IsLast]
  | cons first rest hypothesis =>
    rw [putAll, List.foldl_cons, ← putAll, hypothesis, isLast_cons_iff, lookup_replaceContract,
      or_assoc]
    refine or_congr Iff.rfl ?_
    -- What is put in first counts if nothing later has its type.
    obtain ⟨own, stated⟩ := first
    by_cases same : own = extensionType
    · subst same
      simp [and_comm]
    · rw [if_neg same]
      simp only [types_cons, List.mem_cons, Ne.symm same, false_or, mk.injEq, same, false_and,
        and_false]

/-- **Contracts of distinct types are told by their types and their interfaces.** -/
theorem eq_of_lookup (distinct : (types contracts).Nodup) (same : types contracts = types others)
    (agree : ∀ extensionType, lookup contracts extensionType = lookup others extensionType) :
    contracts = others := by
  induction contracts generalizing others with
  | nil => exact (List.map_eq_nil_iff.mp same.symm).symm
  | cons first rest hypothesis =>
    cases others with
    | nil => cases same
    | cons other others =>
      obtain ⟨own, below⟩ : first.extensionType = other.extensionType ∧ types rest = types others :=
        List.cons.inj same
      obtain ⟨absent, distinct⟩ : first.extensionType ∉ types rest ∧ (types rest).Nodup :=
        List.nodup_cons.mp distinct
      have here := agree first.extensionType
      rw [lookup_cons, if_pos rfl, lookup_cons, if_pos own.symm, Option.some.injEq] at here
      have head : first = other := by
        cases first
        cases other
        simp_all
      rw [head, hypothesis distinct below fun extensionType => ?_]
      -- Further down the first type has no contract in either list, and others are found there.
      by_cases known : first.extensionType = extensionType
      · rw [← known, lookup_eq_none_iff.mpr absent, lookup_eq_none_iff.mpr (below ▸ absent)]
      · have later := agree extensionType
        rwa [lookup_cons, if_neg known, lookup_cons, if_neg (by rwa [← own])] at later

end Contract

open Contract

theorem DiscoverySettings.contract?_eq (settings : DiscoverySettings)
    (extensionType : ExtensionType) :
    settings.contract? extensionType = lookup settings.contracts extensionType := rfl

/-! ### The default contracts -/

theorem nodup_defaultContracts : (types defaultContracts).Nodup := by decide

theorem nodup_mergeContracts (configured : List Contract) :
    (types (mergeContracts configured)).Nodup :=
  nodup_putAll nodup_defaultContracts configured

variable {configured : List Contract} {extensionType : ExtensionType} {interface : String}

theorem mem_types_mergeContracts_iff : extensionType ∈ types (mergeContracts configured) ↔
    extensionType ∈ types defaultContracts ∨ extensionType ∈ types configured := by
  rw [mergeContracts, ← putAll, types_putAll, List.mem_append, List.mem_eraseDups,
    List.mem_filter]
  by_cases known : extensionType ∈ types defaultContracts <;> simp [known]

/-- Lookups in merged contracts find what is configured last, or else the default. -/
theorem lookup_mergeContracts_eq_some_iff :
    lookup (mergeContracts configured) extensionType = some interface ↔
      IsLast configured extensionType interface ∨
        extensionType ∉ types configured ∧ ⟨extensionType, interface⟩ ∈ defaultContracts := by
  rw [← lookup_eq_some_iff_mem nodup_defaultContracts]
  exact lookup_putAll_eq_some_iff

theorem mem_mergeContracts_iff : ⟨extensionType, interface⟩ ∈ mergeContracts configured ↔
    IsLast configured extensionType interface ∨
      extensionType ∉ types configured ∧ ⟨extensionType, interface⟩ ∈ defaultContracts := by
  rw [← lookup_eq_some_iff_mem (nodup_mergeContracts configured),
    lookup_mergeContracts_eq_some_iff]

/-- **Merging what is merged changes nothing.** -/
theorem mergeContracts_mergeContracts (configured : List Contract) :
    mergeContracts (mergeContracts configured) = mergeContracts configured := by
  have distinct := nodup_mergeContracts configured
  refine eq_of_lookup (nodup_mergeContracts _) ?_ fun extensionType => ?_
  · exact types_putAll_of_prefix distinct
      (types_putAll defaultContracts configured ▸ List.prefix_append ..)
  · refine Option.ext fun interface => ?_
    rw [lookup_mergeContracts_eq_some_iff, isLast_iff_mem distinct,
      lookup_eq_some_iff_mem distinct, or_iff_left]
    rintro ⟨unknown, default⟩
    exact unknown (mem_types_mergeContracts_iff.mpr (.inl (mem_types default)))

/-- **What the default contracts become.** Whatever is configured, each type with a default or a
configured contract has exactly one contract in the end. Its interface is the one that is configured
last, or else the default. The types with a default come first, as they did, and the others follow
in the order in which they appear first. Merging once more changes nothing. -/
theorem mergeContracts_answers (configured : List Contract) :
    (∀ extensionType, (types (mergeContracts configured)).count extensionType =
      if extensionType ∈ types defaultContracts ∨ extensionType ∈ types configured then 1
      else 0) ∧
    (∀ (settings : DiscoverySettings) (extensionType : ExtensionType) (interface : String),
      { settings with contracts := mergeContracts configured }.contract? extensionType =
          some interface ↔
        IsLast configured extensionType interface ∨
          extensionType ∉ types configured ∧ ⟨extensionType, interface⟩ ∈ defaultContracts) ∧
    types (mergeContracts configured) = types defaultContracts ++
      ((types configured).filter (· ∉ types defaultContracts)).eraseDups ∧
    mergeContracts (mergeContracts configured) = mergeContracts configured := by
  refine ⟨fun extensionType => ?_, fun settings extensionType interface => ?_,
    types_putAll defaultContracts configured, mergeContracts_mergeContracts configured⟩
  · split
    · next known =>
      exact List.count_eq_one_of_mem (nodup_mergeContracts configured)
        (mem_types_mergeContracts_iff.mpr known)
    · next unknown =>
      exact List.count_eq_zero_of_not_mem (mt mem_types_mergeContracts_iff.mp unknown)
  · rw [DiscoverySettings.contract?_eq]
    exact lookup_mergeContracts_eq_some_iff

example : mergeContracts [⟨.connector, "A"⟩, ⟨.reportingTask, "B"⟩, ⟨.connector, "C"⟩] =
    [defaultContracts[0], defaultContracts[1], ⟨.reportingTask, "B"⟩, ⟨.connector, "C"⟩] := by
  decide

end ExtensionCatalog
