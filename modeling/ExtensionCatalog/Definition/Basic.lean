/-
**Extension definitions.**

What the catalogue says of one extension: its type and class, a description, tags, restrictions,
and the service contracts it provides. Definitions are ordered field by field, an absent field
before any value.

* `Restrictions.of?`: there are restrictions if there is a general explanation or a specific one;
* `Restrictions.of?_eq_none_iff`, `Restrictions.mem_of?`: what they say is what they were made of;
* the instances of `TransOrd` and `LawfulEqOrd` for every part of a definition.
-/

import ExtensionCatalog.Coordinate
import ExtensionCatalog.Sorted.Map
import ExtensionCatalog.Sorted.Set

namespace ExtensionCatalog

open Std

/-- The kinds of extension. -/
inductive ExtensionType where
  | processor
  | controllerService
  | reportingTask
  | connector
deriving DecidableEq, Inhabited

namespace ExtensionType

/-- The types that documentation covers, in the order of the documents. -/
def documented : List ExtensionType := [processor, controllerService, reportingTask]

/-- All types, in order. -/
def all : List ExtensionType := [processor, controllerService, reportingTask, connector]

/-- The place of a type in the order of types. -/
def rank : ExtensionType → Nat
  | processor => 0
  | controllerService => 1
  | reportingTask => 2
  | connector => 3

/-- The name of a type in every format. -/
def name : ExtensionType → String
  | processor => "processor"
  | controllerService => "controller_service"
  | reportingTask => "reporting_task"
  | connector => "connector"

/-- The type of a name. -/
def ofName? (name : String) : Option ExtensionType := all.find? (·.name == name)

instance : Ord ExtensionType := ⟨compareOn rank⟩

instance : TransOrd ExtensionType := inferInstanceAs (TransCmp (compareOn rank))

instance : LawfulEqOrd ExtensionType where
  eq_of_compare {first second} equal := by
    have equal : compareOn rank first second = .eq := equal
    cases first <;> cases second <;> first | rfl | exact absurd equal (by decide)

end ExtensionType

/-- A restriction that concerns one permission. -/
structure Restriction where
  identifier : String
  explanation : String
deriving DecidableEq, Inhabited

namespace Restriction

def compareFields : Restriction → Restriction → Ordering :=
  compareLex (compareOn identifier) (compareOn explanation)

instance : Ord Restriction := ⟨compareFields⟩

instance : TransCmp compareFields := by
  unfold compareFields
  infer_instance

instance : TransOrd Restriction := inferInstanceAs (TransCmp compareFields)

instance : LawfulEqOrd Restriction where
  eq_of_compare {first second} equal := by
    have equal : compareFields first second = .eq := equal
    simp only [compareFields, compareLex_eq_eq, compareOn, Std.compare_eq_iff_eq] at equal
    cases first
    cases second
    simp_all

end Restriction

/-- The restrictions of an extension. -/
structure Restrictions where
  /-- Why the extension is restricted as a whole, if that is stated. -/
  generalExplanation : Option String
  restrictions : SortedSet Restriction
deriving DecidableEq, Inhabited

namespace Restrictions

def compareFields : Restrictions → Restrictions → Ordering :=
  compareLex (compareOn generalExplanation) (compareOn restrictions)

instance : Ord Restrictions := ⟨compareFields⟩

instance : TransCmp compareFields := by
  unfold compareFields
  infer_instance

instance : TransOrd Restrictions := inferInstanceAs (TransCmp compareFields)

instance : LawfulEqOrd Restrictions where
  eq_of_compare {first second} equal := by
    have equal : compareFields first second = .eq := equal
    simp only [compareFields, compareLex_eq_eq, compareOn, Std.compare_eq_iff_eq] at equal
    cases first
    cases second
    simp_all

/-- Restrictions with explanations by permission identifier; none if there is no explanation at
all. -/
def of? (general : Option String) (specific : SortedMap String String) : Option Restrictions :=
  if general.isNone && specific.isEmpty then none
  else some ⟨general, .ofList (specific.toList.map fun (identifier, explanation) =>
    ⟨identifier, explanation⟩)⟩

/-- There are no restrictions exactly when there is nothing to say. -/
theorem of?_eq_none_iff {general : Option String} {specific : SortedMap String String} :
    of? general specific = none ↔ general = none ∧ specific = ∅ := by
  have empty : specific.isEmpty = true ↔ specific = ∅ := by
    obtain ⟨pairs, ascending⟩ := specific
    cases pairs with
    | nil => exact iff_of_true rfl rfl
    | cons pair pairs =>
      exact iff_of_false (by simp [SortedMap.isEmpty]) fun equal => by
        cases congrArg SortedMap.toList equal
  unfold of?
  split
  · next nothing => simpa [empty] using nothing
  · next something => simpa [empty] using something

theorem generalExplanation_of? {general : Option String} {specific : SortedMap String String}
    {restrictions : Restrictions} (made : of? general specific = some restrictions) :
    restrictions.generalExplanation = general := by
  unfold of? at made
  split at made
  · cases made
  · cases made
    rfl

/-- The restrictions are the explanations that they were made of. -/
theorem mem_of? {general : Option String} {specific : SortedMap String String}
    {restrictions : Restrictions} (made : of? general specific = some restrictions)
    (restriction : Restriction) :
    restriction ∈ restrictions.restrictions ↔
      specific.find? restriction.identifier = some restriction.explanation := by
  unfold of? at made
  split at made
  · cases made
  · cases made
    rw [SortedSet.mem_ofList, SortedMap.find?_eq_some_iff, List.mem_map]
    constructor
    · rintro ⟨pair, member, rfl⟩
      exact member
    · exact fun member => ⟨_, member, rfl⟩

end Restrictions

/-- A service contract that an extension provides, and the module that defines the contract. -/
structure ServiceApi where
  className : String
  groupId : String
  artifactId : String
  version : String
deriving DecidableEq, Inhabited

namespace ServiceApi

/-- The contract `className`, attributed to `module`. -/
def ofModule (className : String) (module : Coordinate) : ServiceApi :=
  ⟨className, module.group, module.artifact, module.version⟩

def compareFields : ServiceApi → ServiceApi → Ordering :=
  compareLex (compareOn className) <| compareLex (compareOn groupId) <|
    compareLex (compareOn artifactId) (compareOn version)

instance : Ord ServiceApi := ⟨compareFields⟩

instance : TransCmp compareFields := by
  unfold compareFields
  infer_instance

instance : TransOrd ServiceApi := inferInstanceAs (TransCmp compareFields)

instance : LawfulEqOrd ServiceApi where
  eq_of_compare {first second} equal := by
    have equal : compareFields first second = .eq := equal
    simp only [compareFields, compareLex_eq_eq, compareOn, Std.compare_eq_iff_eq] at equal
    cases first
    cases second
    simp_all

end ServiceApi

/-- What the catalogue says of one extension. -/
structure Definition where
  extensionType : ExtensionType
  /-- The name of the class. -/
  name : String
  description : Option String
  tags : SortedSet String
  restrictions : Option Restrictions
  serviceApis : SortedSet ServiceApi
deriving DecidableEq, Inhabited

namespace Definition

/-- A definition that says nothing but type and name. -/
def bare (extensionType : ExtensionType) (name : String) : Definition :=
  ⟨extensionType, name, none, ∅, none, ∅⟩

def compareFields : Definition → Definition → Ordering :=
  compareLex (compareOn extensionType) <| compareLex (compareOn name) <|
    compareLex (compareOn description) <| compareLex (compareOn tags) <|
      compareLex (compareOn restrictions) (compareOn serviceApis)

instance : Ord Definition := ⟨compareFields⟩

instance : TransCmp compareFields := by
  unfold compareFields
  infer_instance

instance : TransOrd Definition := inferInstanceAs (TransCmp compareFields)

instance : LawfulEqOrd Definition where
  eq_of_compare {first second} equal := by
    have equal : compareFields first second = .eq := equal
    simp only [compareFields, compareLex_eq_eq, compareOn, Std.compare_eq_iff_eq] at equal
    cases first
    cases second
    simp_all

end Definition

/-- Definitions by extension type. -/
abbrev Catalog := SortedMap ExtensionType (SortedSet Definition)

namespace Catalog

/-- The definitions of a type; none if the type is missing. -/
def definitionsOf (catalog : Catalog) (extensionType : ExtensionType) : List Definition :=
  match catalog.find? extensionType with
  | some definitions => definitions.toList
  | none => []

/-- All definitions, type by type. -/
def definitions (catalog : Catalog) : List Definition := catalog.values.flatMap (·.toList)

end Catalog

end ExtensionCatalog
