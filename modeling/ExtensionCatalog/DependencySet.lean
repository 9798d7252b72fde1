/-
**Dependency sets.**

A dependency set holds coordinates, each with the file recorded for it, if any. The first record of
a coordinate wins, and a record without file wins like any other.

* `find?_insert`: what inserting does to every coordinate;
* `insertAll`, `extend`, `ofList`: inserting many;
* `mem_coordinates`, `find?_erase`, `find?_eraseAll`: which coordinates a set has;
* `remove_eq`: taking a coordinate out yields its record.
-/

import ExtensionCatalog.Coordinate
import ExtensionCatalog.FilePath
import ExtensionCatalog.Sorted.Map

namespace ExtensionCatalog

/-- Coordinates, each with its file if one is known. -/
structure DependencySet where
  records : SortedMap Coordinate (Option FilePath)
deriving DecidableEq, Inhabited

namespace DependencySet

instance : EmptyCollection DependencySet := ⟨⟨∅⟩⟩

/-- Add a coordinate; the file recorded for it first is kept. -/
def insert (set : DependencySet) (coordinate : Coordinate) (file : Option FilePath) :
    DependencySet :=
  ⟨set.records.insertNew coordinate file⟩

/-- Add coordinates in order. -/
def insertAll (set : DependencySet) (records : List (Coordinate × Option FilePath)) :
    DependencySet :=
  records.foldl (fun set record => set.insert record.1 record.2) set

/-- Add the coordinates of another set, keeping the files recorded here. -/
def extend (set other : DependencySet) : DependencySet := set.insertAll other.records.toList

/-- The set of a list of records; the first record of a coordinate wins. -/
def ofList (records : List (Coordinate × Option FilePath)) : DependencySet :=
  (∅ : DependencySet).insertAll records

/-- The record of a coordinate: its file, possibly absent, if the set has the coordinate. -/
def find? (set : DependencySet) (coordinate : Coordinate) : Option (Option FilePath) :=
  set.records.find? coordinate

def contains (set : DependencySet) (coordinate : Coordinate) : Bool :=
  set.records.contains coordinate

/-- The set without a coordinate. -/
def erase (set : DependencySet) (coordinate : Coordinate) : DependencySet :=
  ⟨set.records.erase coordinate⟩

/-- Take a coordinate out: its record, if it had one, and the set without it. -/
def remove (set : DependencySet) (coordinate : Coordinate) :
    Option (Option FilePath) × DependencySet :=
  let (recorded, others) := set.records.remove coordinate
  (recorded, ⟨others⟩)

/-- The set without any of some coordinates. -/
def eraseAll (set : DependencySet) (coordinates : List Coordinate) : DependencySet :=
  coordinates.foldl erase set

/-- The coordinates, in order. -/
def coordinates (set : DependencySet) : List Coordinate := set.records.keys

/-- The records, in order of their coordinates. -/
def toList (set : DependencySet) : List (Coordinate × Option FilePath) := set.records.toList

def size (set : DependencySet) : Nat := set.records.size

def isEmpty (set : DependencySet) : Bool := set.records.isEmpty

@[simp] theorem find?_empty (coordinate : Coordinate) :
    (∅ : DependencySet).find? coordinate = none := rfl

/-- Inserting records a coordinate that has no record yet and changes nothing else. -/
theorem find?_insert (set : DependencySet) (coordinate other : Coordinate)
    (file : Option FilePath) :
    (set.insert coordinate file).find? other =
      if other = coordinate then some ((set.find? coordinate).getD file) else set.find? other := by
  simp [find?, insert, SortedMap.find?_insertNew]

theorem find?_erase (set : DependencySet) (coordinate other : Coordinate) :
    (set.erase coordinate).find? other =
      if other = coordinate then none else set.find? other := by
  simp [find?, erase, SortedMap.find?_erase]

/-- Taking a coordinate out yields its record and leaves the set without it. -/
theorem remove_eq (set : DependencySet) (coordinate : Coordinate) :
    set.remove coordinate = (set.find? coordinate, set.erase coordinate) := by
  rw [remove, SortedMap.remove_eq]
  rfl

/-- A set has exactly the coordinates with a record. -/
theorem mem_coordinates (set : DependencySet) (coordinate : Coordinate) :
    coordinate ∈ set.coordinates ↔ (set.find? coordinate).isSome := by
  simp only [coordinates, SortedMap.keys, List.mem_map, Option.isSome_iff_exists, find?,
    SortedMap.find?_eq_some_iff, Prod.exists, exists_and_right, exists_eq_right]

/-- Erasing coordinates erases those and nothing else. -/
theorem find?_eraseAll (set : DependencySet) (erased : List Coordinate) (coordinate : Coordinate) :
    (set.eraseAll erased).find? coordinate =
      if coordinate ∈ erased then none else set.find? coordinate := by
  induction erased generalizing set with
  | nil => rfl
  | cons first rest hypothesis =>
    rw [eraseAll, List.foldl_cons, ← eraseAll, hypothesis, find?_erase]
    by_cases here : coordinate = first <;> simp [here]

/-- The answers determine the set. -/
theorem ext_find? {first second : DependencySet}
    (same : ∀ coordinate, first.find? coordinate = second.find? coordinate) : first = second := by
  cases first
  cases second
  simpa using SortedMap.ext_find? same

end DependencySet

end ExtensionCatalog
