/-
**Sorted maps: finite maps as strictly ascending lists of pairs.**

A map is the list of its pairs in ascending order of the keys, so two maps are equal exactly when
they answer every key alike, and walking a map meets its keys in order.

* `find?_upsert`: updating one key changes the answer for that key alone;
* `find?_erase`: erasing a key forgets that key alone;
* `remove_eq`: taking a key out yields its value and erases it;
* `find?_eq_some_iff`: the answers are the pairs of the list;
* `find?_ofList`, `find?_ofList_eq_some_iff_last`: collecting pairs keeps the last one of each key;
* `find?_ofList_eq_some_iff`: collecting pairs that agree on every key keeps exactly these pairs;
* `ofList_of_perm`: a map is collected from its pairs in any order;
* `ext_find?`: equal answers make equal maps.
-/

namespace ExtensionCatalog

open Std

/-- A finite map, kept as its pairs in strictly ascending order of the keys. -/
structure SortedMap (κ : Type) (α : Type) [Ord κ] where
  toList : List (κ × α)
  ascending : toList.Pairwise fun first second => compare first.1 second.1 = .lt

namespace SortedMap

variable {κ α : Type} [Ord κ]

instance [DecidableEq κ] [DecidableEq α] : DecidableEq (SortedMap κ α) := fun first second =>
  decidable_of_iff (first.toList = second.toList) (by cases first; cases second; simp)

instance : EmptyCollection (SortedMap κ α) := ⟨⟨[], .nil⟩⟩

instance : Inhabited (SortedMap κ α) := ⟨∅⟩

/-- The keys, in ascending order. -/
def keys (map : SortedMap κ α) : List κ := map.toList.map (·.1)

/-- The values, in ascending order of their keys. -/
def values (map : SortedMap κ α) : List α := map.toList.map (·.2)

/-- The number of keys. -/
def size (map : SortedMap κ α) : Nat := map.toList.length

def isEmpty (map : SortedMap κ α) : Bool := map.toList.isEmpty

/-- The value of the pair whose key compares equal to `key`. -/
def lookup (key : κ) : List (κ × α) → Option α
  | [] => none
  | (first, value) :: rest => if compare key first = .eq then some value else lookup key rest

/-- The value recorded for `key`. -/
def find? (map : SortedMap κ α) (key : κ) : Option α := lookup key map.toList

def contains (map : SortedMap κ α) (key : κ) : Bool := (map.find? key).isSome

/-- One pass over an ascending list that gives `key` the value `update` makes of its old one. -/
def upsertPairs (key : κ) (update : Option α → α) : List (κ × α) → List (κ × α)
  | [] => [(key, update none)]
  | (first, value) :: rest =>
    match compare key first with
    | .lt => (key, update none) :: (first, value) :: rest
    | .eq => (first, update (some value)) :: rest
    | .gt => (first, value) :: upsertPairs key update rest

/-- Every key of the updated list is `key` or was there before. -/
theorem mem_keys_upsertPairs {key : κ} {update : Option α → α} {pairs : List (κ × α)}
    {pair : κ × α} (member : pair ∈ upsertPairs key update pairs) :
    pair.1 = key ∨ ∃ old ∈ pairs, old.1 = pair.1 := by
  induction pairs with
  | nil => simp_all [upsertPairs]
  | cons head rest hypothesis =>
    obtain ⟨first, value⟩ := head
    rw [upsertPairs] at member
    split at member
    · grind
    · rcases List.mem_cons.mp member with rfl | later
      · exact .inr ⟨(first, value), by simp, rfl⟩
      · exact .inr ⟨pair, by simp [later], rfl⟩
    · rcases List.mem_cons.mp member with rfl | later
      · exact .inr ⟨_, by simp, rfl⟩
      · rcases hypothesis later with equal | ⟨old, there, equal⟩
        · exact .inl equal
        · exact .inr ⟨old, by simp [there], equal⟩

theorem ascending_upsertPairs [TransOrd κ] {key : κ} {update : Option α → α}
    {pairs : List (κ × α)}
    (ascending : pairs.Pairwise fun first second => compare first.1 second.1 = .lt) :
    (upsertPairs key update pairs).Pairwise fun first second => compare first.1 second.1 = .lt := by
  induction pairs with
  | nil => simp [upsertPairs]
  | cons head rest hypothesis =>
    obtain ⟨first, value⟩ := head
    rw [List.pairwise_cons] at ascending
    rw [upsertPairs]
    split
    · rename_i below
      refine List.pairwise_cons.mpr ⟨?_, List.pairwise_cons.mpr ascending⟩
      intro pair member
      rcases List.mem_cons.mp member with rfl | later
      · exact below
      · exact TransCmp.lt_trans below (ascending.1 _ later)
    · exact List.pairwise_cons.mpr ascending
    · rename_i above
      refine List.pairwise_cons.mpr ⟨?_, hypothesis ascending.2⟩
      intro pair member
      rcases mem_keys_upsertPairs member with equal | ⟨old, there, equal⟩
      · rw [equal]; exact OrientedCmp.gt_iff_lt.mp above
      · rw [← equal]; exact ascending.1 _ there

/-- Give `key` the value that `update` makes of its old value, if it had one. -/
def upsert [TransOrd κ] (map : SortedMap κ α) (key : κ) (update : Option α → α) : SortedMap κ α :=
  ⟨upsertPairs key update map.toList, ascending_upsertPairs map.ascending⟩

/-- Record `value` for `key`, replacing an earlier value. -/
def insert [TransOrd κ] (map : SortedMap κ α) (key : κ) (value : α) : SortedMap κ α :=
  map.upsert key fun _ => value

/-- Record `value` for `key` unless it already has one. -/
def insertNew [TransOrd κ] (map : SortedMap κ α) (key : κ) (value : α) : SortedMap κ α :=
  map.upsert key fun old => old.getD value

/-- The pairs that satisfy `keep`. -/
def filter (map : SortedMap κ α) (keep : κ → α → Bool) : SortedMap κ α :=
  ⟨map.toList.filter fun pair => keep pair.1 pair.2, map.ascending.filter _⟩

/-- Forget `key`. -/
def erase (map : SortedMap κ α) (key : κ) : SortedMap κ α :=
  map.filter fun other _ => compare key other != .eq

/-- One pass over an ascending list that takes the pair of `key` out of it. -/
def removePairs (key : κ) : List (κ × α) → Option α × List (κ × α)
  | [] => (none, [])
  | (first, value) :: rest =>
    match compare key first with
    | .lt => (none, (first, value) :: rest)
    | .eq => (some value, rest)
    | .gt => ((removePairs key rest).1, (first, value) :: (removePairs key rest).2)

theorem sublist_removePairs (key : κ) (pairs : List (κ × α)) :
    (removePairs key pairs).2.Sublist pairs := by
  induction pairs with
  | nil => exact .refl _
  | cons head rest hypothesis =>
    rw [removePairs]
    split
    · exact .refl _
    · exact .cons _ (.refl _)
    · exact .cons_cons _ hypothesis

/-- Take `key` out: its value, if it had one, and the map without it. -/
def remove (map : SortedMap κ α) (key : κ) : Option α × SortedMap κ α :=
  ((removePairs key map.toList).1,
    ⟨(removePairs key map.toList).2, map.ascending.sublist (sublist_removePairs key map.toList)⟩)

/-- Insert the pairs of a list one after the other; a later pair replaces an earlier one. -/
def ofList [TransOrd κ] (pairs : List (κ × α)) : SortedMap κ α :=
  pairs.foldl (fun map pair => map.insert pair.1 pair.2) ∅

/-! ### Answers -/

@[simp] theorem find?_empty (key : κ) : (∅ : SortedMap κ α).find? key = none := rfl

theorem lookup_eq_none {key : κ} {pairs : List (κ × α)}
    (absent : ∀ pair ∈ pairs, compare key pair.1 ≠ .eq) : lookup key pairs = none := by
  induction pairs with
  | nil => rfl
  | cons head rest hypothesis =>
    rw [lookup, if_neg (absent head (.head _))]
    exact hypothesis fun pair member => absent pair (.tail _ member)

/-- A key below the first one of an ascending list is none of its keys. -/
theorem compare_ne_eq_of_lt [TransOrd κ] {key : κ} {head : κ × α} {rest : List (κ × α)}
    (ascending : (head :: rest).Pairwise fun first second => compare first.1 second.1 = .lt)
    (below : compare key head.1 = .lt) : ∀ pair ∈ head :: rest, compare key pair.1 ≠ .eq := by
  intro pair member
  rcases List.mem_cons.mp member with rfl | later
  · simp [below]
  · simp [TransCmp.lt_trans below ((List.pairwise_cons.mp ascending).1 pair later)]

theorem lookup_upsertPairs [TransOrd κ] [LawfulEqOrd κ] (key other : κ) (update : Option α → α)
    {pairs : List (κ × α)}
    (ascending : pairs.Pairwise fun first second => compare first.1 second.1 = .lt) :
    lookup other (upsertPairs key update pairs) =
      if compare other key = .eq then some (update (lookup key pairs)) else lookup other pairs := by
  induction pairs with
  | nil => simp [upsertPairs, lookup]
  | cons head rest hypothesis =>
    obtain ⟨first, value⟩ := head
    have absent (below : compare key first = .lt) : lookup key rest = none :=
      lookup_eq_none fun pair member => compare_ne_eq_of_lt ascending below pair (.tail _ member)
    have hypothesis := hypothesis (List.pairwise_cons.mp ascending).2
    rw [upsertPairs]
    split <;> rename_i order
    · by_cases same : compare other key = .eq
      · simp [lookup, same, order, absent order]
      · simp [lookup, same]
    · have equal := LawfulEqCmp.eq_of_compare order
      subst equal
      by_cases same : compare other key = .eq <;> simp [lookup, same]
    · by_cases same : compare other key = .eq
      · have equal := LawfulEqCmp.eq_of_compare same
        subst equal
        simpa [lookup, order] using hypothesis
      · simp only [lookup, same, if_false] at hypothesis ⊢
        rw [hypothesis]

/-- Updating one key changes the answer for that key alone. -/
theorem find?_upsert [TransOrd κ] [LawfulEqOrd κ] (map : SortedMap κ α) (key other : κ)
    (update : Option α → α) :
    (map.upsert key update).find? other =
      if compare other key = .eq then some (update (map.find? key)) else map.find? other :=
  lookup_upsertPairs key other update map.ascending

theorem find?_insert [TransOrd κ] [LawfulEqOrd κ] (map : SortedMap κ α) (key other : κ)
    (value : α) :
    (map.insert key value).find? other =
      if compare other key = .eq then some value else map.find? other :=
  find?_upsert map key other _

theorem find?_insertNew [TransOrd κ] [LawfulEqOrd κ] (map : SortedMap κ α) (key other : κ)
    (value : α) :
    (map.insertNew key value).find? other =
      if compare other key = .eq then some ((map.find? key).getD value) else map.find? other :=
  find?_upsert map key other _

theorem lookup_filter_erase [TransOrd κ] [LawfulEqOrd κ] (key other : κ) (pairs : List (κ × α)) :
    lookup other (pairs.filter fun pair => compare key pair.1 != .eq) =
      if compare other key = .eq then none else lookup other pairs := by
  induction pairs with
  | nil => simp [lookup]
  | cons head rest hypothesis =>
    obtain ⟨first, value⟩ := head
    by_cases hit : compare key first = .eq
    · have equal := LawfulEqCmp.eq_of_compare hit
      subst equal
      by_cases same : compare other key = .eq <;> simp_all [lookup]
    · by_cases same : compare other key = .eq
      · have equal := LawfulEqCmp.eq_of_compare same
        subst equal
        simp_all [lookup]
      · simp_all [lookup]

/-- Erasing a key forgets that key alone. -/
theorem find?_erase [TransOrd κ] [LawfulEqOrd κ] (map : SortedMap κ α) (key other : κ) :
    (map.erase key).find? other = if compare other key = .eq then none else map.find? other :=
  lookup_filter_erase key other map.toList

/-- One pass finds what a lookup finds, and leaves what erasing leaves. -/
theorem removePairs_eq [TransOrd κ] (key : κ) {pairs : List (κ × α)}
    (ascending : pairs.Pairwise fun first second => compare first.1 second.1 = .lt) :
    removePairs key pairs =
      (lookup key pairs, pairs.filter fun pair => compare key pair.1 != .eq) := by
  have apart {pairs : List (κ × α)} (absent : ∀ pair ∈ pairs, compare key pair.1 ≠ .eq) :
      pairs.filter (fun pair => compare key pair.1 != .eq) = pairs :=
    List.filter_eq_self.mpr fun pair member => bne_iff_ne.mpr (absent pair member)
  induction pairs with
  | nil => rfl
  | cons head rest hypothesis =>
    obtain ⟨first, value⟩ := head
    obtain ⟨above, further⟩ := List.pairwise_cons.mp ascending
    rw [removePairs]
    split <;> rename_i order
    · have absent := compare_ne_eq_of_lt ascending order
      rw [lookup_eq_none absent, apart absent]
    · have absent (pair) (member : pair ∈ rest) : compare key pair.1 ≠ .eq := by
        rw [TransCmp.congr_left order, above pair member]
        decide
      rw [lookup, if_pos order, List.filter_cons_of_neg (by simp [order]), apart absent]
    · rw [hypothesis further, lookup, if_neg (by simp [order]),
        List.filter_cons_of_pos (by simp [order])]

/-- Taking a key out yields what was recorded for it and leaves the map without it. -/
theorem remove_eq [TransOrd κ] (map : SortedMap κ α) (key : κ) :
    map.remove key = (map.find? key, map.erase key) := by
  have whole := removePairs_eq key map.ascending
  simp only [remove, whole]
  rfl

theorem lookup_eq_some_iff [TransOrd κ] [LawfulEqOrd κ] {key : κ} {value : α}
    {pairs : List (κ × α)}
    (ascending : pairs.Pairwise fun first second => compare first.1 second.1 = .lt) :
    lookup key pairs = some value ↔ (key, value) ∈ pairs := by
  induction pairs with
  | nil => simp [lookup]
  | cons head rest hypothesis =>
    obtain ⟨first, other⟩ := head
    have later := (List.pairwise_cons.mp ascending).1
    have hypothesis := hypothesis (List.pairwise_cons.mp ascending).2
    by_cases same : compare key first = .eq
    · have equal := LawfulEqCmp.eq_of_compare same
      subst equal
      have fresh : (key, value) ∉ rest := fun member => by
        have := later _ member
        simp at this
      simp [lookup, fresh, eq_comm]
    · have different : key ≠ first := fun equal => same (by simp [equal])
      simp [lookup, same, hypothesis, different]

/-- The answers are the pairs of the list. -/
theorem find?_eq_some_iff [TransOrd κ] [LawfulEqOrd κ] (map : SortedMap κ α) (key : κ) (value : α) :
    map.find? key = some value ↔ (key, value) ∈ map.toList :=
  lookup_eq_some_iff map.ascending

/-- The keys are those that have an answer. -/
theorem mem_keys_iff_contains [TransOrd κ] [LawfulEqOrd κ] (map : SortedMap κ α) (key : κ) :
    key ∈ map.keys ↔ map.contains key = true := by
  simp only [keys, contains, List.mem_map, Option.isSome_iff_exists, find?_eq_some_iff,
    Prod.exists, exists_and_right, exists_eq_right]

/-- Ascending lists with the same members are equal. -/
theorem eq_of_mem_iff [TransOrd κ] {first second : List (κ × α)}
    (ascendingFirst : first.Pairwise fun a b => compare a.1 b.1 = .lt)
    (ascendingSecond : second.Pairwise fun a b => compare a.1 b.1 = .lt)
    (same : ∀ pair, pair ∈ first ↔ pair ∈ second) : first = second := by
  induction first generalizing second with
  | nil =>
    cases second with
    | nil => rfl
    | cons head rest => exact absurd ((same head).mpr (by simp)) (by simp)
  | cons head rest hypothesis =>
    cases second with
    | nil => exact absurd ((same head).mp (by simp)) (by simp)
    | cons head' rest' =>
      have below := List.pairwise_cons.mp ascendingFirst
      have below' := List.pairwise_cons.mp ascendingSecond
      have heads : head = head' := by
        rcases List.mem_cons.mp ((same head).mp (by simp)) with equal | member
        · exact equal
        rcases List.mem_cons.mp ((same head').mpr (by simp)) with equal | member'
        · exact equal.symm
        have cycle := TransCmp.lt_trans (below'.1 _ member) (below.1 _ member')
        simp at cycle
      subst heads
      refine congrArg (head :: ·) (hypothesis below.2 below'.2 fun pair => ?_)
      have whole := same pair
      simp only [List.mem_cons] at whole
      refine ⟨fun member => ?_, fun member => ?_⟩
      · rcases whole.mp (.inr member) with rfl | later
        · have := below.1 _ member
          simp at this
        · exact later
      · rcases whole.mpr (.inr member) with rfl | later
        · have := below'.1 _ member
          simp at this
        · exact later

/-- Equal answers make equal maps. -/
theorem ext_find? [TransOrd κ] [LawfulEqOrd κ] {first second : SortedMap κ α}
    (same : ∀ key, first.find? key = second.find? key) : first = second := by
  have lists : first.toList = second.toList :=
    eq_of_mem_iff first.ascending second.ascending fun pair => by
      rw [← find?_eq_some_iff first, ← find?_eq_some_iff second, same]
  cases first
  cases second
  simpa using lists

theorem eq_empty_iff [TransOrd κ] [LawfulEqOrd κ] {map : SortedMap κ α} :
    map = ∅ ↔ ∀ key, map.find? key = none := by
  constructor
  · rintro rfl key
    rfl
  · exact fun absent => ext_find? absent

/-! ### Collected pairs and numbered ones -/

theorem find?_foldl_insert [TransOrd κ] [LawfulEqOrd κ] [DecidableEq κ] (pairs : List (κ × α))
    (map : SortedMap κ α) (key : κ) :
    (pairs.foldl (fun map pair => map.insert pair.1 pair.2) map).find? key =
      ((pairs.reverse.find? (·.1 = key)).map (·.2)).or (map.find? key) := by
  induction pairs generalizing map with
  | nil => simp
  | cons pair pairs hypothesis =>
    rw [List.foldl_cons, hypothesis, find?_insert, List.reverse_cons, List.find?_append]
    simp only [Std.compare_eq_iff_eq, eq_comm (a := key)]
    cases pairs.reverse.find? (·.1 = key) with
    | some later => simp
    | none => by_cases same : pair.1 = key <;> simp [same]

/-- Of several pairs with one key, collecting keeps the last one. -/
theorem find?_ofList [TransOrd κ] [LawfulEqOrd κ] [DecidableEq κ] (pairs : List (κ × α))
    (key : κ) : (ofList pairs).find? key = (pairs.reverse.find? (·.1 = key)).map (·.2) := by
  rw [ofList, find?_foldl_insert, find?_empty, Option.or_none]

/-- Collecting keeps a pair exactly if none with its key comes later. -/
theorem find?_ofList_eq_some_iff_last [TransOrd κ] [LawfulEqOrd κ] [DecidableEq κ]
    {pairs : List (κ × α)} {key : κ} {value : α} :
    (ofList pairs).find? key = some value ↔
      ∃ before behind, pairs = before ++ (key, value) :: behind ∧
        ∀ pair ∈ behind, pair.1 ≠ key := by
  rw [find?_ofList]
  simp only [Option.map_eq_some_iff, List.find?_eq_some_iff_append, Bool.not_eq_true',
    decide_eq_true_eq, decide_eq_false_iff_not]
  constructor
  · rintro ⟨⟨first, value⟩, ⟨rfl, behind, before, split, others⟩, rfl⟩
    refine ⟨before.reverse, behind.reverse, ?_, fun pair member =>
      others pair (List.mem_reverse.mp member)⟩
    rw [← List.reverse_reverse pairs, split, List.reverse_append, List.reverse_cons,
      List.append_assoc, List.singleton_append]
  · rintro ⟨before, behind, rfl, others⟩
    refine ⟨(key, value), ⟨rfl, behind.reverse, before.reverse, ?_, fun pair member =>
      others pair (List.mem_reverse.mp member)⟩, rfl⟩
    rw [List.reverse_append, List.reverse_cons, List.append_assoc, List.singleton_append]

theorem find?_foldl_insert_eq_some_iff [TransOrd κ] [LawfulEqOrd κ] {pairs : List (κ × α)}
    (agree : ∀ key value other, (key, value) ∈ pairs → (key, other) ∈ pairs → value = other)
    (map : SortedMap κ α) (key : κ) (value : α) :
    (pairs.foldl (fun map pair => map.insert pair.1 pair.2) map).find? key = some value ↔
      (key, value) ∈ pairs ∨ (∀ pair ∈ pairs, pair.1 ≠ key) ∧ map.find? key = some value := by
  induction pairs generalizing map with
  | nil => simp
  | cons pair pairs hypothesis =>
    obtain ⟨first, recorded⟩ := pair
    have later := hypothesis (fun key value other member member' =>
      agree key value other (.tail _ member) (.tail _ member')) (map.insert first recorded)
    rw [List.foldl_cons, later]
    simp only [find?_insert, Std.compare_eq_iff_eq]
    have here := fun other member => agree first recorded other (.head _) (.tail _ member)
    by_cases same : key = first
    · subst same
      by_cases again : ∃ pair ∈ pairs, pair.1 = key
      · obtain ⟨⟨_, other⟩, member, rfl⟩ := again
        grind
      · grind
    · grind

/-- Collecting pairs that agree on every key gives a map with exactly these pairs. -/
theorem find?_ofList_eq_some_iff [TransOrd κ] [LawfulEqOrd κ] {pairs : List (κ × α)}
    (agree : ∀ key value other, (key, value) ∈ pairs → (key, other) ∈ pairs → value = other)
    (key : κ) (value : α) : (ofList pairs).find? key = some value ↔ (key, value) ∈ pairs := by
  rw [ofList, find?_foldl_insert_eq_some_iff agree]
  simp

/-- A map is collected from its pairs, in any order. -/
theorem ofList_of_perm [TransOrd κ] [LawfulEqOrd κ] {map : SortedMap κ α} {pairs : List (κ × α)}
    (order : pairs.Perm map.toList) : ofList pairs = map := by
  have listed : ∀ key value, (key, value) ∈ pairs ↔ map.find? key = some value := by
    intro key value
    rw [order.mem_iff, find?_eq_some_iff]
  have agree : ∀ key value other, (key, value) ∈ pairs → (key, other) ∈ pairs → value = other := by
    intro key value other first second
    have found := ((listed key value).mp first).symm.trans ((listed key other).mp second)
    exact Option.some.inj found
  apply ext_find?
  intro key
  apply Option.ext
  intro value
  rw [find?_ofList_eq_some_iff agree, listed]

/-- A map whose keys are numbers below a bound has no more pairs than that. -/
theorem length_le_of_ascending {bound : Nat} {pairs : List (Nat × α)}
    (ascending : pairs.Pairwise fun first second => compare first.1 second.1 = .lt) (start : Nat)
    (above : ∀ pair ∈ pairs, start ≤ pair.1) (below : ∀ pair ∈ pairs, pair.1 < bound) :
    pairs.length ≤ bound - start := by
  induction pairs generalizing start with
  | nil => simp
  | cons pair pairs hypothesis =>
    obtain ⟨later, ascending⟩ := List.pairwise_cons.mp ascending
    have here := below pair (.head _)
    have least := above pair (.head _)
    have rest := hypothesis ascending (pair.1 + 1)
      (fun other member => Nat.compare_eq_lt.mp (later other member))
      (fun other member => below other (.tail _ member))
    rw [List.length_cons]
    omega

end SortedMap

end ExtensionCatalog
