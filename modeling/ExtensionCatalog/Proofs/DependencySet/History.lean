/-
**What dependency sets hold after any operations on them.**

Several sets are empty at first and are told apart by names. Coordinates are inserted into them and
removed from them, and they are extended by one another, in any order. A coordinate enters a set
when it comes to a set that does not have it. The record it enters with stays as it is until the
coordinate is removed, also a record without file to which one with a file comes later.

* `extend_assoc`, `extend_self`, `extend_extend_self`: the laws of putting sets together;
* `SetOperation`, `SetOperation.run`: operations on several sets, one after the other;
* `Enters`: an operation by which a coordinate enters a set;
* `find?_apply_eq_some_iff`, `find?_run_eq_some_iff`: the records after one operation and after any;
* `run_holds_entered`: **records stay as they entered**.
-/

import Mathlib.Data.List.Induction
import Mathlib.Logic.Function.Basic
import ExtensionCatalog.Proofs.DependencySet

namespace ExtensionCatalog

namespace DependencySet

theorem extend_assoc (first second third : DependencySet) :
    (first.extend second).extend third = first.extend (second.extend third) := by
  refine ext_find? fun coordinate => ?_
  rw [find?_extend, find?_extend, find?_extend, find?_extend, Option.or_assoc]

theorem extend_self (set : DependencySet) : set.extend set = set := by
  refine ext_find? fun coordinate => ?_
  rw [find?_extend, Option.or_self]

/-- Extending by a set once more changes nothing. -/
theorem extend_extend_self (set other : DependencySet) :
    (set.extend other).extend other = set.extend other := by
  rw [extend_assoc, extend_self]

end DependencySet

open DependencySet

/-- An operation on one of several sets. -/
inductive SetOperation (ν : Type) where
  | insert (target : ν) (coordinate : Coordinate) (file : Option FilePath)
  | extend (target source : ν)
  | remove (target : ν) (coordinate : Coordinate)
deriving DecidableEq

namespace SetOperation

variable {ν : Type}

/-- The set that is operated on. -/
def target : SetOperation ν → ν
  | insert target _ _ => target
  | extend target _ => target
  | remove target _ => target

/-- What becomes of the set that is operated on. -/
def result (sets : ν → DependencySet) : SetOperation ν → DependencySet
  | insert target coordinate file => (sets target).insert coordinate file
  | extend target source => (sets target).extend (sets source)
  | remove target coordinate => ((sets target).remove coordinate).2

/-- By an operation a coordinate enters a set, which does not have it, with a record. -/
inductive Enters (sets : ν → DependencySet) (name : ν) (coordinate : Coordinate)
    (recorded : Option FilePath) : SetOperation ν → Prop
  | inserted (absent : (sets name).find? coordinate = none) :
      Enters sets name coordinate recorded (insert name coordinate recorded)
  | extended {source : ν} (absent : (sets name).find? coordinate = none)
      (held : (sets source).find? coordinate = some recorded) :
      Enters sets name coordinate recorded (extend name source)

section Enters

variable {sets : ν → DependencySet} {name target source : ν} {coordinate inserted : Coordinate}
  {file recorded : Option FilePath} {operation : SetOperation ν}

theorem Enters.target_eq (enters : Enters sets name coordinate recorded operation) :
    operation.target = name := by
  cases enters <;> rfl

theorem enters_insert_iff :
    Enters sets name coordinate recorded (insert target inserted file) ↔
      target = name ∧ inserted = coordinate ∧ file = recorded ∧
        (sets name).find? coordinate = none := by
  constructor
  · rintro ⟨absent⟩
    exact ⟨rfl, rfl, rfl, absent⟩
  · rintro ⟨rfl, rfl, rfl, absent⟩
    exact .inserted absent

theorem enters_extend_iff :
    Enters sets name coordinate recorded (extend target source) ↔
      target = name ∧ (sets name).find? coordinate = none ∧
        (sets source).find? coordinate = some recorded := by
  constructor
  · rintro (- | ⟨absent, held⟩)
    exact ⟨rfl, absent, held⟩
  · rintro ⟨rfl, absent, held⟩
    exact .extended absent held

theorem not_enters_remove :
    ¬ Enters sets name coordinate recorded (remove target inserted) := nofun

/-- What a set has after an operation on it. -/
theorem find?_result_eq_some_iff :
    (operation.result sets).find? coordinate = some recorded ↔
      Enters sets operation.target coordinate recorded operation ∨
      (sets operation.target).find? coordinate = some recorded ∧
        operation ≠ remove operation.target coordinate := by
  cases operation with
  | insert target inserted file =>
    simp only [result, SetOperation.target, find?_insert, enters_insert_iff]
    by_cases here : coordinate = inserted
    · subst here
      cases (sets target).find? coordinate <;> simp
    · simp [here, Ne.symm here]
  | extend target source =>
    simp only [result, SetOperation.target, find?_extend, enters_extend_iff, Option.or_eq_some_iff]
    simp [or_comm]
  | remove target removed =>
    simp only [result, SetOperation.target, remove_eq, find?_erase, not_enters_remove]
    by_cases here : coordinate = removed
    · simp [here]
    · simp [here, Ne.symm here]

end Enters

variable [DecidableEq ν]

/-- The sets after an operation. -/
def apply (sets : ν → DependencySet) (operation : SetOperation ν) : ν → DependencySet :=
  Function.update sets operation.target (operation.result sets)

/-- The sets after operations on sets that were empty. -/
def run (operations : List (SetOperation ν)) : ν → DependencySet :=
  operations.foldl apply fun _ => ∅

variable {sets : ν → DependencySet} {operation : SetOperation ν} {name : ν}
  {coordinate : Coordinate} {recorded : Option FilePath}

/-! ### One operation -/

/-- Other sets stay as they are. -/
theorem apply_of_ne (other : name ≠ operation.target) : apply sets operation name = sets name :=
  Function.update_of_ne other ..

theorem apply_target : apply sets operation operation.target = operation.result sets :=
  Function.update_self ..

/-- **One operation.** A set has the records that enter it, and those it had before, but for one
that is removed. -/
theorem find?_apply_eq_some_iff :
    (apply sets operation name).find? coordinate = some recorded ↔
      Enters sets name coordinate recorded operation ∨
      (sets name).find? coordinate = some recorded ∧ operation ≠ remove name coordinate := by
  by_cases own : name = operation.target
  · subst own
    rw [apply_target, find?_result_eq_some_iff]
  · rw [apply_of_ne own]
    refine ⟨fun held => .inr ⟨held, ?_⟩, ?_⟩
    · rintro rfl
      exact own rfl
    · rintro (enters | ⟨held, -⟩)
      · exact absurd enters.target_eq.symm own
      · exact held

/-! ### Any operations -/

theorem run_concat (operations : List (SetOperation ν)) (operation : SetOperation ν) :
    run (operations ++ [operation]) = apply (run operations) operation := by
  rw [run, List.foldl_append]
  rfl

/-- A record stays until its coordinate is removed. -/
theorem find?_run_append {operations later : List (SetOperation ν)}
    (held : (run operations name).find? coordinate = some recorded)
    (kept : remove name coordinate ∉ later) :
    (run (operations ++ later) name).find? coordinate = some recorded := by
  induction later using List.reverseRecOn with
  | nil => rwa [List.append_nil]
  | append_singleton later operation hypothesis =>
    rw [List.mem_append, List.mem_singleton, not_or] at kept
    rw [← List.append_assoc, run_concat, find?_apply_eq_some_iff]
    exact .inr ⟨hypothesis kept.1, Ne.symm kept.2⟩

/-- **Any operations.** A set has the records with which coordinates entered it and were not removed
since. -/
theorem find?_run_eq_some_iff {operations : List (SetOperation ν)} :
    (run operations name).find? coordinate = some recorded ↔
      ∃ before operation after, operations = before ++ operation :: after ∧
        Enters (run before) name coordinate recorded operation ∧
        remove name coordinate ∉ after := by
  constructor
  · intro held
    induction operations using List.reverseRecOn with
    | nil => cases held
    | append_singleton operations last hypothesis =>
      rw [run_concat, find?_apply_eq_some_iff] at held
      rcases held with enters | ⟨held, other⟩
      · exact ⟨operations, last, [], rfl, enters, List.not_mem_nil⟩
      · obtain ⟨before, operation, after, rfl, enters, kept⟩ := hypothesis held
        refine ⟨before, operation, after ++ [last], by simp, enters, ?_⟩
        rw [List.mem_append, List.mem_singleton, not_or]
        exact ⟨kept, Ne.symm other⟩
  · rintro ⟨before, operation, after, rfl, enters, kept⟩
    rw [List.append_cons]
    refine find?_run_append ?_ kept
    rw [run_concat, find?_apply_eq_some_iff]
    exact .inl enters

/-- Collecting records is inserting them in order. -/
theorem run_map_insert (name : ν) (records : List (Coordinate × Option FilePath)) :
    run (records.map fun record => insert name record.1 record.2) name = ofList records := by
  induction records using List.reverseRecOn with
  | nil => rfl
  | append_singleton records record hypothesis =>
    have own : ∀ sets, apply sets (insert name record.1 record.2) name =
        (sets name).insert record.1 record.2 := fun _ => apply_target
    rw [List.map_append, List.map_singleton, run_concat, own, hypothesis, ofList, ofList,
      insertAll, insertAll, List.foldl_append]
    rfl

/-- **Records stay as they entered.** After any operations on sets that were empty, a set has the
record with which a coordinate entered it last, as long as it was not removed since; what is
inserted later and what the set is extended by do not replace it. Each operation changes one set
only, and removing yields the record that the set has. So putting sets together is associative and
idempotent and prefers the records of the first one, and collecting records is inserting them in
order. -/
theorem run_holds_entered (operations : List (SetOperation ν)) :
    (∀ name coordinate recorded,
      (run operations name).find? coordinate = some recorded ↔
        ∃ before operation after, operations = before ++ operation :: after ∧
          Enters (run before) name coordinate recorded operation ∧
          remove name coordinate ∉ after) ∧
    (∀ name coordinate recorded later,
      (run operations name).find? coordinate = some recorded → remove name coordinate ∉ later →
        (run (operations ++ later) name).find? coordinate = some recorded) ∧
    (∀ operation name, name ≠ operation.target →
      run (operations ++ [operation]) name = run operations name) ∧
    (∀ name coordinate, (run operations name).remove coordinate =
      ((run operations name).find? coordinate,
        run (operations ++ [remove name coordinate]) name)) ∧
    (∀ first second third : DependencySet,
      (first.extend second).extend third = first.extend (second.extend third)) ∧
    (∀ set other : DependencySet,
      set.extend set = set ∧ (set.extend other).extend other = set.extend other ∧
      ∀ coordinate, (set.extend other).find? coordinate =
        (set.find? coordinate).or (other.find? coordinate)) ∧
    ∀ (name : ν) (records : List (Coordinate × Option FilePath)),
      ofList records = run (records.map fun record => insert name record.1 record.2) name := by
  refine ⟨fun name coordinate recorded => find?_run_eq_some_iff,
    fun name coordinate recorded later => find?_run_append, fun operation name other => ?others,
    fun name coordinate => ?removed, extend_assoc,
    fun set other => ⟨extend_self set, extend_extend_self set other, find?_extend set other⟩,
    fun name records => (run_map_insert name records).symm⟩
  case others => rw [run_concat, apply_of_ne other]
  case removed =>
    have own : apply (run operations) (remove name coordinate) name =
        ((run operations name).remove coordinate).2 := apply_target
    rw [run_concat, own, remove_eq]

/-- An artifact whose file is not known to one of two sets. -/
def sharedJar : Coordinate := .jar "g" "a" "1"

/-- The left set has the artifact without a file, the right one with a file. -/
def recordedTwice : List (SetOperation String) :=
  [insert "left" sharedJar none, insert "right" sharedJar (some ⟨"/a.jar"⟩)]

theorem run_holds_entered_recordedTwice :
    (run recordedTwice "left").find? sharedJar = some none ∧
    remove "left" sharedJar ∉ [extend "left" "right"] ∧
    (run (recordedTwice ++ [extend "left" "right"]) "left").find? sharedJar = some none ∧
    "right" ≠ (remove "left" sharedJar).target ∧
    run (recordedTwice ++ [remove "left" sharedJar]) "right" = run recordedTwice "right" ∧
    ((run recordedTwice "left").remove sharedJar).1 = some none ∧
    (run (recordedTwice ++ [remove "left" sharedJar, extend "left" "right"]) "left").find?
      sharedJar = some (some ⟨"/a.jar"⟩) := by
  obtain ⟨entered, kept, others, removed, -⟩ := run_holds_entered recordedTwice
  obtain ⟨again, -⟩ :=
    run_holds_entered (recordedTwice ++ [remove "left" sharedJar, extend "left" "right"])
  have held : (run recordedTwice "left").find? sharedJar = some none :=
    (entered ..).mpr ⟨[], _, _, rfl, .inserted rfl, by decide⟩
  refine ⟨held, nofun, kept _ _ _ _ held nofun, by decide, others _ _ (by decide), ?_,
    (again ..).mpr ⟨recordedTwice ++ [remove "left" sharedJar], _, [], rfl, ?_, by decide⟩⟩
  · rw [removed, held]
  · exact .extended (by rfl) (by rfl)

end SetOperation

end ExtensionCatalog
