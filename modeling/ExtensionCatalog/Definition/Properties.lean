/-
**Definitions as properties.**

The properties of a definition state everything but its type and its class. Tags and service
contracts are numbered; restrictions are keyed by their permission.

* `toProperties`: the pairs of a definition, in order;
* `ofProperties`: the definition that pairs describe; pairs of other keys are ignored.
-/

import ExtensionCatalog.Definition.Basic
import ExtensionCatalog.Properties

namespace ExtensionCatalog.Definition

def descriptionKey : String := "capability.description"

def tagStart : String := "tags."

def generalKey : String := "restricted.description"

def restrictionStart : String := "restriction."

def serviceStart : String := "service.definition."

/-- What follows `start` in a key that begins with it. -/
def after? (start key : String) : Option String :=
  if start.toList.isPrefixOf key.toList then some (String.ofList (key.toList.drop start.length))
  else none

/-- The pairs of a service contract with its number. -/
def serviceProperties (api : ServiceApi) (index : Nat) : List (String × String) :=
  let key (field : String) := serviceStart ++ toString index ++ "." ++ field
  [(key "class", api.className), (key "groupId", api.groupId), (key "artifactId", api.artifactId),
    (key "version", api.version)]

/-- The pairs of restrictions. -/
def restrictionProperties (restrictions : Restrictions) : List (String × String) :=
  (restrictions.generalExplanation.toList.map fun general => (generalKey, general)) ++
    restrictions.restrictions.toList.map fun restriction =>
      (restrictionStart ++ restriction.identifier, restriction.explanation)

/-- The pairs of a definition, in order. -/
def toProperties (definition : Definition) : List (String × String) :=
  (definition.description.toList.map fun description => (descriptionKey, description)) ++
    (definition.tags.toList.zipIdx.map fun (tag, index) => (tagStart ++ toString index, tag)) ++
    (definition.restrictions.toList.flatMap restrictionProperties) ++
    definition.serviceApis.toList.zipIdx.flatMap fun (api, index) => serviceProperties api index

/-- The properties document of a definition. -/
def renderProperties (definition : Definition) : String := Properties.render definition.toProperties

/-- The numbers that a key can have lie below this one. -/
def indexLimit : Nat := 0x10000000000000000

/-- The number and the field that the rest of a service key names. -/
def serviceField? (rest : String) : Option (Nat × String) :=
  match rest.toList.span (· != '.') with
  | (_, []) => none
  | (digits, _ :: field) => do
    let index ← Text.Numeral.read? 10 digits
    if index < indexLimit then some (index, String.ofList field) else none

/-- The meaning of a key. -/
inductive Key where
  | tag
  | general
  | restriction (identifier : String)
  | service (index : Nat) (field : String)
  | malformed
  | unknown
deriving DecidableEq

/-- What a key means; the forms are tried in this order. -/
def Key.of (key : String) : Key :=
  if (after? tagStart key).isSome then .tag
  else if key = generalKey then .general
  else
    match after? restrictionStart key with
    | some identifier => .restriction identifier
    | none =>
      match after? serviceStart key with
      | some rest =>
        match serviceField? rest with
        | some (index, field) => .service index field
        | none => .malformed
      | none => .unknown

/-- What pairs say before they are put together. -/
structure Draft where
  tags : SortedSet String
  general : Option String
  restrictions : SortedMap String String
  services : SortedMap Nat (SortedMap String String)
deriving Inhabited

/-- Add what one pair says. -/
def Draft.add (draft : Draft) (pair : String × String) : Except PropertiesFault Draft :=
  match Key.of pair.1 with
  | .tag => .ok { draft with tags := draft.tags.insert pair.2 }
  | .general => .ok { draft with general := some pair.2 }
  | .restriction identifier =>
    .ok { draft with restrictions := draft.restrictions.insert identifier pair.2 }
  | .service index field =>
    .ok { draft with
      services := draft.services.upsert index fun fields =>
        (fields.getD ∅).insert field pair.2 }
  | .malformed => .error (.malformedKey pair.1)
  | .unknown => .ok draft

/-- The service contract of a number with its fields. -/
def serviceOf (index : Nat) (fields : SortedMap String String) :
    Except PropertiesFault ServiceApi := do
  let field (name : String) : Except PropertiesFault String :=
    match fields.find? name with
    | some value => .ok value
    | none => .error (.missingField index name)
  return ⟨← field "class", ← field "groupId", ← field "artifactId", ← field "version"⟩

/-- The definition that pairs describe, or what is wrong with them. -/
def ofPairs (extensionType : ExtensionType) (name : String) (pairs : SortedMap String String) :
    Except PropertiesFault Definition := do
  let draft ← pairs.toList.foldlM Draft.add default
  let services ← draft.services.toList.mapM fun (index, fields) => serviceOf index fields
  return {
    extensionType, name
    description := pairs.find? descriptionKey
    tags := draft.tags
    restrictions := Restrictions.of? draft.general draft.restrictions
    serviceApis := .ofList services }

/-- The definition that pairs describe. -/
def ofProperties (extensionType : ExtensionType) (name : String)
    (pairs : SortedMap String String) : Except Error Definition :=
  match ofPairs extensionType name pairs with
  | .ok definition => .ok definition
  | .error fault => .error (.invalidProperties fault)

end ExtensionCatalog.Definition
