/-
**What the pairs of a document add up to.**

Reading the pairs one after the other collects a draft. `Draft.Sums` states what the draft of any
list of pairs is, without the order in which it was collected: tags are gathered, and of several
pairs with the same meaning the last one counts.

* `lastValue_eq_some_iff`: in a map the greatest key of a meaning counts;
* `add_tags`, `add_general`, `add_restrictions`, `add_field`, `add_indices`: what one pair changes;
* `sums_of_foldlM`: **the collected draft sums the pairs**, by induction from the last pair;
* `exists_foldlM`: only a malformed key stops the collection;
* `Draft.Sums.unique`: the pairs determine the draft.
-/

import Mathlib.Data.List.Induction
import ExtensionCatalog.Proofs.Definition.Keys
import ExtensionCatalog.Proofs.Outcome

namespace ExtensionCatalog.Definition

/-- The last value among the pairs whose keys have a meaning. -/
def lastValue (pairs : List (String × String)) (key : Key) : Option String :=
  (pairs.filterMap fun pair => if Key.of pair.1 = key then some pair.2 else none).getLast?

theorem lastValue_append_singleton (pairs : List (String × String)) (pair : String × String)
    (key : Key) :
    lastValue (pairs ++ [pair]) key =
      if Key.of pair.1 = key then some pair.2 else lastValue pairs key := by
  unfold lastValue
  rw [List.filterMap_append]
  split
  · next means => simp [means]
  · next other => simp [other]

/-- If all pairs of a meaning have one value, and there is one, that value counts. -/
theorem lastValue_eq_some_of_unique {pairs : List (String × String)} {key : Key} {value : String}
    (given : ∃ pair ∈ pairs, Key.of pair.1 = key ∧ pair.2 = value)
    (only : ∀ pair ∈ pairs, Key.of pair.1 = key → pair.2 = value) :
    lastValue pairs key = some value := by
  unfold lastValue
  obtain ⟨pair, member, means, same⟩ := given
  have present : pair.2 ∈ pairs.filterMap fun pair =>
      if Key.of pair.1 = key then some pair.2 else none :=
    List.mem_filterMap.mpr ⟨pair, member, by simp [means]⟩
  obtain ⟨last, isLast⟩ := Option.isSome_iff_exists.mp
    (List.getLast?_isSome.mpr (List.ne_nil_of_mem present))
  obtain ⟨other, there, value⟩ := List.mem_filterMap.mp (List.mem_of_getLast? isLast)
  split at value
  · next means' =>
    cases value
    rw [isLast, only other there means']
  · cases value

theorem lastValue_eq_none {pairs : List (String × String)} {key : Key}
    (absent : ∀ pair ∈ pairs, Key.of pair.1 ≠ key) : lastValue pairs key = none := by
  have empty : (pairs.filterMap fun pair =>
      if Key.of pair.1 = key then some pair.2 else none) = [] := by
    rw [List.filterMap_eq_nil_iff]
    intro pair member
    rw [if_neg (absent pair member)]
  rw [lastValue, empty]
  rfl

section Ascending

variable {pairs : SortedMap String String} {meaning : Key} {value : String}

theorem lt_of_compare {first second : String} (before : compare first second = .lt) :
    first < second :=
  compareOfLessAndEq_eq_lt.mp before

/-- **In a map the greatest key of a meaning counts**, as it comes last. -/
theorem lastValue_eq_some_iff : lastValue pairs.toList meaning = some value ↔
    ∃ key, Key.of key = meaning ∧ pairs.find? key = some value ∧
      ∀ other, Key.of other = meaning → (pairs.find? other).isSome → other ≤ key := by
  rw [lastValue, List.getLast?_filterMap, List.findSome?_eq_some_iff]
  have ascending := pairs.ascending
  constructor
  · rintro ⟨later, ⟨key, recorded⟩, earlier, reversed, here, silent⟩
    obtain ⟨means, equal⟩ := Option.ite_none_right_eq_some.mp here
    cases equal
    have whole : pairs.toList = earlier.reverse ++ (key, recorded) :: later.reverse := by
      rw [← List.reverse_inj, reversed]
      simp
    rw [whole, List.pairwise_append] at ascending
    refine ⟨key, means, (SortedMap.find?_eq_some_iff ..).mpr (by simp [whole]), ?_⟩
    intro other means' given
    obtain ⟨value', found⟩ := Option.isSome_iff_exists.mp given
    have member := (SortedMap.find?_eq_some_iff ..).mp found
    rw [whole] at member
    rcases List.mem_append.mp member with below | behind
    · exact Std.le_of_lt (lt_of_compare (ascending.2.2 _ below _ List.mem_cons_self))
    · rcases List.mem_cons.mp behind with same | above
      · cases same
        exact String.le_refl _
      · have skipped := silent _ (List.mem_reverse.mp above)
        rw [if_pos means'] at skipped
        cases skipped
  · rintro ⟨key, means, found, greatest⟩
    obtain ⟨earlier, later, whole⟩ :=
      List.append_of_mem ((SortedMap.find?_eq_some_iff ..).mp found)
    refine ⟨later.reverse, (key, value), earlier.reverse, by simp [whole], if_pos means, ?_⟩
    intro pair above
    rw [whole, List.pairwise_append, List.pairwise_cons] at ascending
    have greater := lt_of_compare (ascending.2.1.1 pair (List.mem_reverse.mp above))
    have given : (pairs.find? pair.1).isSome := by
      rw [(SortedMap.find?_eq_some_iff pairs pair.1 pair.2).mpr
        (by simp [whole, List.mem_reverse.mp above])]
      rfl
    exact if_neg fun means' => String.not_le.mpr greater (greatest pair.1 means' given)

theorem lastValue_eq_none_iff : lastValue pairs.toList meaning = none ↔
    ∀ key, Key.of key = meaning → pairs.find? key = none := by
  constructor
  · intro nothing key means
    cases found : pairs.find? key with
    | none => rfl
    | some value =>
      have member := (SortedMap.find?_eq_some_iff ..).mp found
      rw [lastValue, List.getLast?_eq_none_iff, List.filterMap_eq_nil_iff] at nothing
      have skipped := nothing _ member
      rw [if_pos means] at skipped
      cases skipped
  · intro absent
    refine lastValue_eq_none fun pair member means => ?_
    have found := (SortedMap.find?_eq_some_iff pairs pair.1 pair.2).mpr member
    rw [absent pair.1 means] at found
    cases found

/-- Where one key has a meaning, its value counts. -/
theorem lastValue_eq_find? {key : String} (only : ∀ other, Key.of other = meaning ↔ other = key) :
    lastValue pairs.toList meaning = pairs.find? key := by
  ext value
  rw [lastValue_eq_some_iff]
  simp only [only]
  constructor
  · rintro ⟨_, rfl, found, -⟩
    exact found
  · intro found
    refine ⟨key, rfl, found, fun other same _ => ?_⟩
    subst same
    exact String.le_refl other

end Ascending

namespace Draft

/-- The value of a field of the service contract with a number. -/
def field? (draft : Draft) (index : Nat) (field : String) : Option String :=
  (draft.services.find? index).bind (·.find? field)

/-- What the draft of some pairs is. -/
structure Sums (draft : Draft) (pairs : List (String × String)) : Prop where
  wellFormed : ∀ pair ∈ pairs, Key.of pair.1 ≠ .malformed
  tags : ∀ tag, tag ∈ draft.tags ↔ ∃ pair ∈ pairs, Key.of pair.1 = .tag ∧ pair.2 = tag
  general : draft.general = lastValue pairs .general
  restrictions : ∀ identifier,
    draft.restrictions.find? identifier = lastValue pairs (.restriction identifier)
  fields : ∀ index field, draft.field? index field = lastValue pairs (.service index field)
  /-- A number is kept even if none of its fields is one that a contract has. -/
  indices : ∀ index, (draft.services.find? index).isSome ↔
    ∃ pair ∈ pairs, ∃ field, Key.of pair.1 = .service index field

/-! ### One pair -/

theorem add_eq_error_iff {draft : Draft} {pair : String × String} {fault : PropertiesFault} :
    draft.add pair = .error fault ↔ Key.of pair.1 = .malformed ∧ fault = .malformedKey pair.1 := by
  rw [add]
  cases Key.of pair.1 <;> simp [eq_comm]

/-- Keys without a meaning add nothing. -/
theorem foldlM_add_filter (pairs : List (String × String)) (draft : Draft) :
    (pairs.filter fun pair => Key.of pair.1 != .unknown).foldlM add draft =
      pairs.foldlM add draft := by
  induction pairs generalizing draft with
  | nil => rfl
  | cons pair rest hypothesis =>
    by_cases unknown : Key.of pair.1 = .unknown
    · have nothing : draft.add pair = .ok draft := by rw [add, unknown]
      rw [List.filter_cons_of_neg (by simp [unknown]), hypothesis, List.foldlM_cons, nothing]
      rfl
    · rw [List.filter_cons_of_pos (by simpa using unknown), List.foldlM_cons, List.foldlM_cons]
      exact Outcome.bind_congr_of_ok fun next _ => hypothesis next

section Step

variable {draft next : Draft} {pair : String × String} (added : draft.add pair = .ok next)
include added

theorem add_wellFormed : Key.of pair.1 ≠ .malformed := by
  intro malformed
  rw [add, malformed] at added
  cases added

theorem add_tags (tag : String) :
    tag ∈ next.tags ↔ tag ∈ draft.tags ∨ Key.of pair.1 = .tag ∧ pair.2 = tag := by
  cases means : Key.of pair.1 <;> simp only [add, means] at added <;> cases added <;>
    simp [or_comm, eq_comm]

theorem add_general :
    next.general = if Key.of pair.1 = .general then some pair.2 else draft.general := by
  cases means : Key.of pair.1 <;> simp only [add, means] at added <;> cases added <;> simp

theorem add_restrictions (identifier : String) :
    next.restrictions.find? identifier =
      if Key.of pair.1 = .restriction identifier then some pair.2
      else draft.restrictions.find? identifier := by
  cases means : Key.of pair.1 <;> simp only [add, means] at added <;> cases added <;>
    simp [SortedMap.find?_insert, @eq_comm String identifier]

theorem add_services (index : Nat) :
    next.services.find? index =
      match Key.of pair.1 with
      | .service there field =>
        if index = there then some (((draft.services.find? there).getD ∅).insert field pair.2)
        else draft.services.find? index
      | _ => draft.services.find? index := by
  cases means : Key.of pair.1 <;> simp only [add, means] at added <;> cases added <;>
    simp [SortedMap.find?_upsert]

theorem add_field (index : Nat) (field : String) :
    next.field? index field =
      if Key.of pair.1 = .service index field then some pair.2
      else draft.field? index field := by
  unfold field?
  rw [add_services added]
  split
  · next there name means =>
    by_cases same : index = there
    · subst same
      by_cases here : field = name
      · simp [means, here, SortedMap.find?_insert]
      · cases fields : draft.services.find? index <;>
          simp [means, SortedMap.find?_insert, here, Ne.symm here]
    · simp [means, same, Ne.symm same]
  · next other =>
    rw [if_neg fun means => other index field means]

theorem add_indices (index : Nat) :
    (next.services.find? index).isSome ↔
      (draft.services.find? index).isSome ∨ ∃ field, Key.of pair.1 = .service index field := by
  rw [add_services added]
  split
  · next there name means =>
    by_cases same : index = there
    · simp [means, same]
    · simp [means, same, Ne.symm same]
  · next other =>
    have apart : ¬ ∃ field, Key.of pair.1 = .service index field := by
      rintro ⟨field, means⟩
      exact other index field means
    simp only [apart, or_false]

/-- **One pair more.** -/
theorem Sums.add {pairs : List (String × String)} (sums : draft.Sums pairs) :
    next.Sums (pairs ++ [pair]) where
  wellFormed := by
    intro other member
    rcases List.mem_append.mp member with earlier | last
    · exact sums.wellFormed other earlier
    · rw [List.mem_singleton.mp last]
      exact add_wellFormed added
  tags := by
    intro tag
    rw [add_tags added, sums.tags]
    simp [or_and_right, exists_or]
  general := by
    rw [add_general added, lastValue_append_singleton, sums.general]
  restrictions := by
    intro identifier
    rw [add_restrictions added, lastValue_append_singleton, sums.restrictions]
  fields := by
    intro index field
    rw [add_field added, lastValue_append_singleton, sums.fields]
  indices := by
    intro index
    rw [add_indices added, sums.indices]
    simp [or_and_right, exists_or]

end Step

theorem sums_default : (default : Draft).Sums [] where
  wellFormed := by simp
  tags := by
    intro tag
    exact iff_of_false (List.not_mem_nil) (by simp)
  general := rfl
  restrictions _ := rfl
  fields _ _ := rfl
  indices := by
    intro index
    have absent : (default : Draft).services.find? index = none := rfl
    simp [absent]

/-! ### All pairs -/

/-- **The collected draft sums the pairs.** -/
theorem sums_of_foldlM {pairs : List (String × String)} {draft : Draft}
    (collected : pairs.foldlM Draft.add default = .ok draft) : draft.Sums pairs := by
  induction pairs using List.reverseRecOn generalizing draft with
  | nil =>
    cases collected
    exact sums_default
  | append_singleton pairs pair hypothesis =>
    rw [List.foldlM_append] at collected
    obtain ⟨before, earlier, last⟩ := Outcome.bind_eq_ok_iff.mp collected
    rw [List.foldlM_cons] at last
    obtain ⟨next, added, equal⟩ := Outcome.bind_eq_ok_iff.mp last
    cases equal
    exact (hypothesis earlier).add added

/-- Only a malformed key stops the collection. -/
theorem exists_foldlM {pairs : List (String × String)}
    (wellFormed : ∀ pair ∈ pairs, Key.of pair.1 ≠ .malformed) (start : Draft) :
    ∃ draft, pairs.foldlM Draft.add start = .ok draft := by
  induction pairs generalizing start with
  | nil => exact ⟨start, rfl⟩
  | cons pair pairs hypothesis =>
    obtain ⟨here, later⟩ := List.forall_mem_cons.mp wellFormed
    have added : ∃ next, start.add pair = .ok next := by
      rw [add]
      cases means : Key.of pair.1 with
      | malformed => exact absurd means here
      | _ => exact ⟨_, rfl⟩
    obtain ⟨next, added⟩ := added
    rw [List.foldlM_cons, added]
    exact hypothesis later next

/-- The pairs determine the draft. -/
theorem Sums.unique {first second : Draft} {pairs : List (String × String)}
    (sums : first.Sums pairs) (sums' : second.Sums pairs) : first = second := by
  have tags : first.tags = second.tags :=
    SortedSet.ext_mem fun tag => (sums.tags tag).trans (sums'.tags tag).symm
  have general : first.general = second.general := sums.general.trans sums'.general.symm
  have restrictions : first.restrictions = second.restrictions :=
    SortedMap.ext_find? fun identifier =>
      (sums.restrictions identifier).trans (sums'.restrictions identifier).symm
  have services : first.services = second.services := by
    refine SortedMap.ext_find? fun index => ?_
    have there := (sums.indices index).trans (sums'.indices index).symm
    have fields := fun field => (sums.fields index field).trans (sums'.fields index field).symm
    unfold field? at fields
    cases found : first.services.find? index with
    | none =>
      cases found' : second.services.find? index with
      | none => rfl
      | some others => simp [found, found'] at there
    | some record =>
      cases found' : second.services.find? index with
      | none => simp [found, found'] at there
      | some others =>
        simp only [found, found', Option.bind_some] at fields
        rw [SortedMap.ext_find? fields]
  cases first
  cases second
  simp_all

end Draft

end ExtensionCatalog.Definition
