/-
**Sorted sets: finite sets as strictly ascending lists.**

A set is the ascending list of its members, so two sets are equal exactly when they have the same
members, and walking a set meets them in order.

* `mem_insert`: inserting adds one member and removes none;
* `mem_ofList`: collecting a list forgets its order and its repetitions alone;
* `ext_mem`: the members determine the set;
* `compareItems`: sets are ordered like the lists of their members.
-/

namespace ExtensionCatalog

open Std

/-- A finite set, kept as its members in strictly ascending order. -/
structure SortedSet (α : Type) [Ord α] where
  toList : List α
  ascending : toList.Pairwise fun first second => compare first second = .lt

namespace SortedSet

variable {α : Type} [Ord α]

instance [DecidableEq α] : DecidableEq (SortedSet α) := fun first second =>
  decidable_of_iff (first.toList = second.toList) (by cases first; cases second; simp)

theorem toList_injective : Function.Injective (SortedSet.toList (α := α)) := by
  intro first second same
  cases first
  cases second
  cases same
  rfl

instance : EmptyCollection (SortedSet α) := ⟨⟨[], .nil⟩⟩

instance : Inhabited (SortedSet α) := ⟨∅⟩

instance : Membership α (SortedSet α) := ⟨fun set item => item ∈ set.toList⟩

theorem mem_def {set : SortedSet α} {item : α} : item ∈ set ↔ item ∈ set.toList := Iff.rfl

@[simp] theorem toList_empty : (∅ : SortedSet α).toList = [] := rfl

instance [DecidableEq α] (item : α) (set : SortedSet α) : Decidable (item ∈ set) :=
  inferInstanceAs (Decidable (item ∈ set.toList))

/-- The number of members. -/
def size (set : SortedSet α) : Nat := set.toList.length

def isEmpty (set : SortedSet α) : Bool := set.toList.isEmpty

/-- One pass over an ascending list that adds `item` at its place. -/
def insertItem (item : α) : List α → List α
  | [] => [item]
  | first :: rest =>
    match compare item first with
    | .lt => item :: first :: rest
    | .eq => first :: rest
    | .gt => first :: insertItem item rest

theorem eq_or_mem_of_mem_insertItem {item other : α} {items : List α}
    (member : other ∈ insertItem item items) :
    other = item ∨ other ∈ items := by
  induction items with
  | nil => simp_all [insertItem]
  | cons first rest hypothesis =>
    rw [insertItem] at member
    split at member <;> grind

theorem ascending_insertItem [TransOrd α] {item : α} {items : List α}
    (ascending : items.Pairwise fun first second => compare first second = .lt) :
    (insertItem item items).Pairwise fun first second => compare first second = .lt := by
  induction items with
  | nil => simp [insertItem]
  | cons first rest hypothesis =>
    rw [List.pairwise_cons] at ascending
    rw [insertItem]
    split
    · rename_i below
      refine List.pairwise_cons.mpr ⟨?_, List.pairwise_cons.mpr ascending⟩
      intro other member
      rcases List.mem_cons.mp member with rfl | later
      · exact below
      · exact TransCmp.lt_trans below (ascending.1 _ later)
    · exact List.pairwise_cons.mpr ascending
    · rename_i above
      refine List.pairwise_cons.mpr ⟨?_, hypothesis ascending.2⟩
      intro other member
      rcases eq_or_mem_of_mem_insertItem member with equal | there
      · rw [equal]; exact OrientedCmp.gt_iff_lt.mp above
      · exact ascending.1 _ there

/-- Add a member. -/
def insert [TransOrd α] (set : SortedSet α) (item : α) : SortedSet α :=
  ⟨insertItem item set.toList, ascending_insertItem set.ascending⟩

/-- The set of the items of a list. -/
def ofList [TransOrd α] (items : List α) : SortedSet α :=
  items.foldl insert ∅

/-- The members of either set. -/
def union [TransOrd α] (first second : SortedSet α) : SortedSet α :=
  second.toList.foldl insert first

/-! ### Members -/

theorem mem_insertItem [TransOrd α] [LawfulEqOrd α] {item other : α} {items : List α} :
    other ∈ insertItem item items ↔ other = item ∨ other ∈ items := by
  induction items with
  | nil => simp [insertItem]
  | cons first rest hypothesis =>
    rw [insertItem]
    split <;> rename_i order
    · simp
    · have equal := LawfulEqCmp.eq_of_compare order
      subst equal
      simp
    · simp only [List.mem_cons, hypothesis]
      grind

/-- Inserting adds one member and removes none. -/
@[simp] theorem mem_insert [TransOrd α] [LawfulEqOrd α] {set : SortedSet α} {item other : α} :
    other ∈ set.insert item ↔ other = item ∨ other ∈ set :=
  mem_insertItem

theorem mem_foldl_insert [TransOrd α] [LawfulEqOrd α] {item : α} (items : List α)
    (set : SortedSet α) : item ∈ items.foldl insert set ↔ item ∈ items ∨ item ∈ set := by
  induction items generalizing set with
  | nil => simp
  | cons first rest hypothesis =>
    simp only [List.foldl_cons, hypothesis, mem_insert, List.mem_cons]
    grind

/-- Collecting a list forgets its order and its repetitions alone. -/
@[simp] theorem mem_ofList [TransOrd α] [LawfulEqOrd α] {item : α} {items : List α} :
    item ∈ ofList items ↔ item ∈ items := by
  rw [ofList, mem_foldl_insert]
  simp [mem_def]

@[simp] theorem mem_union [TransOrd α] [LawfulEqOrd α] {item : α} {first second : SortedSet α} :
    item ∈ first.union second ↔ item ∈ first ∨ item ∈ second := by
  rw [union, mem_foldl_insert, or_comm]
  rfl

/-- The members determine the set. -/
theorem ext_mem [TransOrd α] {first second : SortedSet α}
    (same : ∀ item, item ∈ first ↔ item ∈ second) : first = second := by
  obtain ⟨items, ascending⟩ := first
  obtain ⟨items', ascending'⟩ := second
  simp only [mem_def] at same
  suffices lists : items = items' by subst lists; rfl
  induction items generalizing items' with
  | nil =>
    cases items' with
    | nil => rfl
    | cons head rest => exact absurd ((same head).mpr (by simp)) (by simp)
  | cons head rest hypothesis =>
    cases items' with
    | nil => exact absurd ((same head).mp (by simp)) (by simp)
    | cons head' rest' =>
      have below := List.pairwise_cons.mp ascending
      have below' := List.pairwise_cons.mp ascending'
      have heads : head = head' := by
        rcases List.mem_cons.mp ((same head).mp (by simp)) with equal | member
        · exact equal
        rcases List.mem_cons.mp ((same head').mpr (by simp)) with equal | member'
        · exact equal.symm
        have cycle := TransCmp.lt_trans (below'.1 _ member) (below.1 _ member')
        simp at cycle
      subst heads
      refine congrArg (head :: ·) (hypothesis below.2 rest' below'.2 fun item => ?_)
      have whole := same item
      simp only [List.mem_cons] at whole
      refine ⟨fun member => ?_, fun member => ?_⟩
      · rcases whole.mp (.inr member) with rfl | later
        · have := below.1 _ member
          simp at this
        · exact later
      · rcases whole.mpr (.inr member) with rfl | later
        · have := below'.1 _ member
          simp at this
        · exact later

/-- Collecting the members of a set gives the set. -/
theorem ofList_toList [TransOrd α] [LawfulEqOrd α] (set : SortedSet α) : ofList set.toList = set :=
  ext_mem fun _ => mem_ofList

/-! ### The size of sets -/

theorem length_insertItem_le (item : α) (items : List α) :
    (insertItem item items).length ≤ items.length + 1 := by
  induction items with
  | nil => simp [insertItem]
  | cons first rest hypothesis =>
    rw [insertItem]
    split <;> (simp only [List.length_cons]; omega)

/-- A collected list has no more members than items. -/
theorem size_ofList_le [TransOrd α] (items : List α) : (ofList items).size ≤ items.length := by
  have grown : ∀ (items : List α) (set : SortedSet α),
      (items.foldl insert set).size ≤ items.length + set.size := by
    intro items
    induction items with
    | nil => simp
    | cons first rest hypothesis =>
      intro set
      have step : (set.insert first).size ≤ set.size + 1 := length_insertItem_le first set.toList
      have rest := hypothesis (set.insert first)
      rw [List.foldl_cons, List.length_cons]
      omega
  exact grown items ∅

/-! ### The order of sets -/

/-- Sets are ordered like the lists of their members. -/
def compareItems (first second : SortedSet α) : Ordering := compare first.toList second.toList

instance : Ord (SortedSet α) := ⟨compareItems⟩

instance [TransOrd α] : TransOrd (SortedSet α) :=
  inferInstanceAs (TransCmp (compareOn (SortedSet.toList (α := α))))

instance [TransOrd α] [LawfulEqOrd α] : LawfulEqOrd (SortedSet α) where
  eq_of_compare {first second} equal := by
    have lists : first.toList = second.toList := LawfulEqCmp.eq_of_compare equal
    cases first
    cases second
    simpa using lists

end SortedSet

end ExtensionCatalog
