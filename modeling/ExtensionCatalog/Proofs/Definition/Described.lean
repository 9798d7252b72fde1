/-
**What a properties document describes, and what is wrong with one that describes nothing.**

The keys of a document fall into five families. Those of service contracts are regrouped by their
numbers, so a document may name a field in several ways, and may leave fields out; nothing else can
be wrong with it.

* `Flaw`: what can be wrong with pairs, each with the fault that reports it;
* `Gives`: the value of a field of a service contract, by the greatest key that names the field;
* `Describes`: what a definition says, in terms of the pairs; `Describes.unique`: no other
  definition says that;
* `flaw_of_ofPairs`, `describes_of_ofPairs`: the two ways in which reading ends;
* `ofPairs_congr`: keys of no family do not matter;
* `ofProperties_describes`: **the definition of pairs, or the fault in them**.
-/

import ExtensionCatalog.Proofs.Definition.RoundTrip

namespace ExtensionCatalog.Definition

/-- The fields that a service contract has to have. -/
def requiredFields : List String := ["class", "groupId", "artifactId", "version"]

/-- What can be wrong with pairs: a service key without a second point, one without a number in
front of that point, or a number without some field that a contract has. -/
inductive Flaw (pairs : SortedMap String String) : PropertiesFault → Prop
  | unseparated {rest : String} (given : (pairs.find? (serviceStart ++ rest)).isSome)
      (whole : '.' ∉ rest.toList) : Flaw pairs (.malformedKey (serviceStart ++ rest))
  | unnumbered {numeral field : String}
      (given : (pairs.find? (serviceStart ++ (numeral ++ "." ++ field))).isSome)
      (first : '.' ∉ numeral.toList)
      (unread : ∀ index < indexLimit, ¬ Text.Numeral.IsDecimal numeral.toList index) :
      Flaw pairs (.malformedKey (serviceStart ++ (numeral ++ "." ++ field)))
  | incomplete {key field name : String} {index : Nat} (given : (pairs.find? key).isSome)
      (named : IsServiceKey key index field) (required : name ∈ requiredFields)
      (absent : ∀ other, IsServiceKey other index name → pairs.find? other = none) :
      Flaw pairs (.missingField index name)

/-- The value of a field of the service contract with a number. Of several keys that name the field
the greatest one counts. -/
def Gives (pairs : SortedMap String String) (index : Nat) (field value : String) : Prop :=
  ∃ key, IsServiceKey key index field ∧ pairs.find? key = some value ∧
    ∀ other, IsServiceKey other index field → (pairs.find? other).isSome → other ≤ key

/-- What the definition of an extension says, in terms of the pairs that describe it. -/
structure Describes (extensionType : ExtensionType) (name : String)
    (pairs : SortedMap String String) (definition : Definition) : Prop where
  extensionType : definition.extensionType = extensionType
  name : definition.name = name
  description : definition.description = pairs.find? descriptionKey
  tags : ∀ tag, tag ∈ definition.tags ↔ ∃ rest, pairs.find? (tagStart ++ rest) = some tag
  unrestricted : definition.restrictions = none ↔
    pairs.find? generalKey = none ∧
      ∀ identifier, pairs.find? (restrictionStart ++ identifier) = none
  restricted : ∀ restrictions, definition.restrictions = some restrictions →
    restrictions.generalExplanation = pairs.find? generalKey ∧
      ∀ restriction, restriction ∈ restrictions.restrictions ↔
        pairs.find? (restrictionStart ++ restriction.identifier) = some restriction.explanation
  serviceApis : ∀ api, api ∈ definition.serviceApis ↔
    ∃ index, ∀ field ∈ api.fields, Gives pairs index field.1 field.2

variable {extensionType : ExtensionType} {name : String} {pairs other : SortedMap String String}
  {definition : Definition} {draft : Draft} {fault : PropertiesFault}

/-- Pairs describe one definition. -/
theorem Describes.unique {second : Definition}
    (describes : Describes extensionType name pairs definition)
    (describes' : Describes extensionType name pairs second) : definition = second := by
  have sameType := describes.extensionType.trans describes'.extensionType.symm
  have sameName := describes.name.trans describes'.name.symm
  have description := describes.description.trans describes'.description.symm
  have tags : definition.tags = second.tags :=
    SortedSet.ext_mem fun tag => (describes.tags tag).trans (describes'.tags tag).symm
  have serviceApis : definition.serviceApis = second.serviceApis :=
    SortedSet.ext_mem fun api => (describes.serviceApis api).trans (describes'.serviceApis api).symm
  have unrestricted := describes.unrestricted.trans describes'.unrestricted.symm
  have restrictions : definition.restrictions = second.restrictions := by
    cases first : definition.restrictions with
    | none => exact (unrestricted.mp first).symm
    | some restrictions =>
      cases last : second.restrictions with
      | none => cases first.symm.trans (unrestricted.mpr last)
      | some restrictions' =>
        obtain ⟨general, specific⟩ := describes.restricted restrictions first
        obtain ⟨general', specific'⟩ := describes'.restricted restrictions' last
        have sameGeneral := general.trans general'.symm
        have sameSpecific : restrictions.restrictions = restrictions'.restrictions :=
          SortedSet.ext_mem fun restriction =>
            (specific restriction).trans (specific' restriction).symm
        cases restrictions
        cases restrictions'
        simp_all
  cases definition
  cases second
  simp_all

/-! ### Service contracts -/

section Fields

variable {index : Nat} {fields : SortedMap String String} {field : String}

/-- A contract that cannot be read lacks a field. -/
theorem exists_of_serviceOf_eq_error (failed : serviceOf index fields = .error fault) :
    ∃ field ∈ requiredFields, fields.find? field = none ∧ fault = .missingField index field := by
  simp only [serviceOf_eq, Outcome.bind_eq_error_iff, fieldOf_eq_error_iff] at failed
  rcases failed with missing | ⟨_, -, missing | ⟨_, -, missing | ⟨_, -, missing | ⟨_, -, equal⟩⟩⟩⟩
  · exact ⟨"class", by decide, missing⟩
  · exact ⟨"groupId", by decide, missing⟩
  · exact ⟨"artifactId", by decide, missing⟩
  · exact ⟨"version", by decide, missing⟩
  · cases equal

/-- A field that is missing stands in for no value. -/
theorem not_serviceOf_eq_ok (required : field ∈ requiredFields)
    (missing : fields.find? field = none) (api : ServiceApi) : serviceOf index fields ≠ .ok api := by
  intro read
  have names : requiredFields = api.fields.map (·.1) := rfl
  rw [names, List.mem_map] at required
  obtain ⟨pair, member, rfl⟩ := required
  rw [serviceOf_eq_ok_iff.mp read pair member] at missing
  cases missing

end Fields

/-! ### From the draft -/

section Sums

variable (sums : draft.Sums pairs.toList) {index : Nat} {field : String}
include sums

theorem field?_eq_some_iff {value : String} :
    draft.field? index field = some value ↔ Gives pairs index field value := by
  rw [sums.fields, lastValue_eq_some_iff]
  simp only [keyOf_eq_service_iff, Gives]

theorem field?_eq_none_iff : draft.field? index field = none ↔
    ∀ key, IsServiceKey key index field → pairs.find? key = none := by
  rw [sums.fields, lastValue_eq_none_iff]
  simp only [keyOf_eq_service_iff]

/-- A number is kept if some key names a field of it. -/
theorem exists_services_iff : (∃ fields, draft.services.find? index = some fields) ↔
    ∃ key field, IsServiceKey key index field ∧ (pairs.find? key).isSome := by
  rw [← Option.isSome_iff_exists, sums.indices]
  simp only [keyOf_eq_service_iff, Option.isSome_iff_exists, SortedMap.find?_eq_some_iff]
  constructor
  · rintro ⟨⟨key, value⟩, member, field, named⟩
    exact ⟨key, field, named, value, member⟩
  · rintro ⟨key, field, named, value, member⟩
    exact ⟨(key, value), member, field, named⟩

theorem general_eq : draft.general = pairs.find? generalKey := by
  rw [sums.general]
  refine lastValue_eq_find? fun key => ?_
  rw [keyOf_eq_iff (by simp)]
  constructor
  · rintro ⟨⟩
    rfl
  · rintro rfl
    exact .general

theorem restrictions_find? (identifier : String) :
    draft.restrictions.find? identifier = pairs.find? (restrictionStart ++ identifier) := by
  rw [sums.restrictions]
  refine lastValue_eq_find? fun key => ?_
  rw [keyOf_eq_iff (by simp)]
  constructor
  · intro spells
    cases spells
    rfl
  · rintro rfl
    exact .restriction identifier

theorem mem_tags_iff (tag : String) :
    tag ∈ draft.tags ↔ ∃ rest, pairs.find? (tagStart ++ rest) = some tag := by
  simp only [sums.tags, SortedMap.find?_eq_some_iff]
  constructor
  · rintro ⟨⟨key, value⟩, member, means, rfl⟩
    cases (keyOf_eq_iff (by simp)).mp means with
    | tag rest => exact ⟨rest, member⟩
  · rintro ⟨rest, member⟩
    exact ⟨_, member, keyOf_tag rest, rfl⟩

end Sums

/-! ### How reading ends -/

theorem ofPairs_eq_ok_iff : ofPairs extensionType name pairs = .ok definition ↔
    ∃ draft services, pairs.toList.foldlM Draft.add default = .ok draft ∧
      draft.services.toList.mapM (fun (index, fields) => serviceOf index fields) = .ok services ∧
      definition = ⟨extensionType, name, pairs.find? descriptionKey, draft.tags,
        Restrictions.of? draft.general draft.restrictions, .ofList services⟩ := by
  rw [ofPairs, Outcome.bind_eq_ok_iff]
  refine exists_congr fun draft => ?_
  constructor
  · rintro ⟨collected, rest⟩
    obtain ⟨services, read, equal⟩ := Outcome.bind_eq_ok_iff.mp rest
    cases equal
    exact ⟨services, collected, read, rfl⟩
  · rintro ⟨services, collected, read, rfl⟩
    exact ⟨collected, Outcome.bind_eq_ok_iff.mpr ⟨services, read, rfl⟩⟩

/-- **What is read is described by the pairs.** -/
theorem describes_of_ofPairs (read : ofPairs extensionType name pairs = .ok definition) :
    Describes extensionType name pairs definition := by
  obtain ⟨draft, services, collected, contracts, rfl⟩ := ofPairs_eq_ok_iff.mp read
  have sums := Draft.sums_of_foldlM collected
  refine ⟨rfl, rfl, rfl, mem_tags_iff sums, ?_, fun restrictions made => ⟨?_, ?_⟩, fun api => ?_⟩
  · simp only [Restrictions.of?_eq_none_iff, general_eq sums, SortedMap.eq_empty_iff,
      restrictions_find? sums]
  · rw [← general_eq sums]
    exact Restrictions.generalExplanation_of? made
  · intro restriction
    rw [← restrictions_find? sums]
    exact Restrictions.mem_of? made restriction
  · simp only [SortedSet.mem_ofList, Outcome.mem_of_mapM_eq_ok contracts, Prod.exists,
      ← SortedMap.find?_eq_some_iff, serviceOf_eq_ok_iff, ← field?_eq_some_iff sums, Draft.field?,
      Option.bind_eq_some_iff]
    refine exists_congr fun index => ?_
    constructor
    · rintro ⟨fields, found, each⟩ field member
      exact ⟨fields, found, each field member⟩
    · intro each
      obtain ⟨fields, found, -⟩ := each _ List.mem_cons_self
      refine ⟨fields, found, fun field member => ?_⟩
      obtain ⟨fields', found', value⟩ := each field member
      cases Option.some.inj (found.symm.trans found')
      exact value

theorem flaw_of_spells {key : String} (given : (pairs.find? key).isSome)
    (malformed : Spells key .malformed) : Flaw pairs (.malformedKey key) := by
  cases malformed with
  | unseparated whole => exact .unseparated given whole
  | unnumbered first unread => exact .unnumbered given first unread

/-- **Reading fails for a flaw of the pairs.** -/
theorem flaw_of_ofPairs (failed : ofPairs extensionType name pairs = .error fault) :
    Flaw pairs fault := by
  rw [ofPairs] at failed
  rcases Outcome.bind_eq_error_iff.mp failed with malformed | ⟨draft, collected, rest⟩
  · obtain ⟨before, pair, after, state, place, -, here⟩ := Outcome.foldlM_eq_error_iff.mp malformed
    obtain ⟨means, rfl⟩ := Draft.add_eq_error_iff.mp here
    have given : (pairs.find? pair.1).isSome := by
      rw [(SortedMap.find?_eq_some_iff pairs pair.1 pair.2).mpr (by rw [place]; simp)]
      rfl
    exact flaw_of_spells given ((keyOf_eq_iff (by simp)).mp means)
  · have sums := Draft.sums_of_foldlM collected
    rcases Outcome.bind_eq_error_iff.mp rest with unread | ⟨services, -, equal⟩
    · obtain ⟨before, ⟨index, fields⟩, after, place, -, here⟩ :=
        Outcome.mapM_eq_error_iff.mp unread
      obtain ⟨field, required, missing, rfl⟩ := exists_of_serviceOf_eq_error here
      have found : draft.services.find? index = some fields :=
        (SortedMap.find?_eq_some_iff ..).mpr (by rw [place]; simp)
      obtain ⟨key, other, named, given⟩ := (exists_services_iff sums).mp ⟨fields, found⟩
      refine .incomplete given named required ((field?_eq_none_iff sums).mp ?_)
      rw [Draft.field?, found, Option.bind_some, missing]
    · cases equal

/-- Pairs with a flaw describe nothing. -/
theorem Flaw.ofPairs_ne_ok (flaw : Flaw pairs fault) :
    ofPairs extensionType name pairs ≠ .ok definition := by
  intro read
  obtain ⟨draft, services, collected, contracts, -⟩ := ofPairs_eq_ok_iff.mp read
  have sums := Draft.sums_of_foldlM collected
  have wellFormed {key : String} (given : (pairs.find? key).isSome)
      (malformed : Spells key .malformed) : False := by
    obtain ⟨value, found⟩ := Option.isSome_iff_exists.mp given
    exact sums.wellFormed _ ((SortedMap.find?_eq_some_iff ..).mp found)
      (keyOf_of_spells malformed)
  cases flaw with
  | unseparated given whole => exact wellFormed given (.unseparated whole)
  | unnumbered given first unread => exact wellFormed given (.unnumbered first unread)
  | incomplete given named required absent =>
    obtain ⟨fields, found⟩ := (exists_services_iff sums).mpr ⟨_, _, named, given⟩
    have missing := (field?_eq_none_iff sums).mpr absent
    rw [Draft.field?, found, Option.bind_some] at missing
    obtain ⟨api, made⟩ := Outcome.exists_of_mapM_eq_ok contracts
      ((SortedMap.find?_eq_some_iff ..).mp found)
    exact not_serviceOf_eq_ok required missing api made

/-! ### Keys that do not matter -/

/-- Whether a key is of one of the families that describe a definition. -/
def IsDescriptive (key : String) : Prop :=
  key = descriptionKey ∨ key = generalKey ∨
    ∃ start ∈ [tagStart, restrictionStart, serviceStart], ∃ rest, key = start ++ rest

theorem isDescriptive_of_keyOf {key : String} (known : Key.of key ≠ .unknown) :
    IsDescriptive key := by
  rcases keyOf_cases key with tag | general | restriction | service | unknown
  · exact .inr (.inr ⟨tagStart, by simp, tag⟩)
  · exact .inr (.inl general)
  · exact .inr (.inr ⟨restrictionStart, by simp, restriction⟩)
  · exact .inr (.inr ⟨serviceStart, by simp, service⟩)
  · exact absurd unknown known

/-- **Only descriptive keys matter.** -/
theorem ofPairs_congr (same : ∀ key, IsDescriptive key → other.find? key = pairs.find? key) :
    ofPairs extensionType name other = ofPairs extensionType name pairs := by
  let known (pair : String × String) : Bool := Key.of pair.1 != .unknown
  have kept : other.toList.filter known = pairs.toList.filter known := by
    refine SortedMap.eq_of_mem_iff (other.ascending.filter known) (pairs.ascending.filter known) ?_
    rintro ⟨key, value⟩
    simp only [List.mem_filter, ← SortedMap.find?_eq_some_iff]
    refine and_congr_left fun meaningful => ?_
    rw [same key (isDescriptive_of_keyOf (by simpa [known] using meaningful))]
  have collected : other.toList.foldlM Draft.add default =
      pairs.toList.foldlM Draft.add default := by
    rw [← Draft.foldlM_add_filter, kept, Draft.foldlM_add_filter]
  rw [ofPairs, ofPairs, collected, same descriptionKey (.inl rfl)]

/-! ### Properties -/

theorem ofProperties_eq_error_iff {error : Error} :
    ofProperties extensionType name pairs = .error error ↔
      ∃ fault, ofPairs extensionType name pairs = .error fault ∧
        error = .invalidProperties fault := by
  rw [ofProperties]
  cases ofPairs extensionType name pairs <;> simp [eq_comm]

/-- **The definition of pairs, or the fault in them.** Pairs without a flaw describe one definition,
which is read; pairs with flaws are refused for one of these. Keys of no family do not matter. -/
theorem ofProperties_describes (extensionType : ExtensionType) (name : String)
    (pairs : SortedMap String String) :
    (∀ definition, ofProperties extensionType name pairs = .ok definition ↔
      (∀ fault, ¬ Flaw pairs fault) ∧ Describes extensionType name pairs definition) ∧
    ((∃ error, ofProperties extensionType name pairs = .error error) ↔ ∃ fault, Flaw pairs fault) ∧
    (∀ error, ofProperties extensionType name pairs = .error error →
      ∃ fault, Flaw pairs fault ∧ error = .invalidProperties fault) ∧
    ∀ other : SortedMap String String,
      (∀ key, IsDescriptive key → other.find? key = pairs.find? key) →
      ofProperties extensionType name other = ofProperties extensionType name pairs := by
  have refused (error : Error) (failed : ofProperties extensionType name pairs = .error error) :
      ∃ fault, Flaw pairs fault ∧ error = .invalidProperties fault := by
    obtain ⟨fault, faulty, rfl⟩ := ofProperties_eq_error_iff.mp failed
    exact ⟨fault, flaw_of_ofPairs faulty, rfl⟩
  have outcome := Outcome.ok_or_error (ofProperties extensionType name pairs)
  refine ⟨fun definition => ⟨fun read => ?_, ?_⟩, ⟨?_, ?_⟩, refused, fun other same => ?_⟩
  · have made := ofProperties_eq_ok_iff.mp read
    exact ⟨fun fault flaw => flaw.ofPairs_ne_ok made, describes_of_ofPairs made⟩
  · rintro ⟨sound, describes⟩
    rcases outcome with ⟨second, read⟩ | ⟨error, failed⟩
    · have describes' := describes_of_ofPairs (ofProperties_eq_ok_iff.mp read)
      rw [read, describes.unique describes']
    · obtain ⟨fault, flaw, -⟩ := refused error failed
      exact absurd flaw (sound fault)
  · rintro ⟨error, failed⟩
    obtain ⟨fault, flaw, -⟩ := refused error failed
    exact ⟨fault, flaw⟩
  · rintro ⟨fault, flaw⟩
    refine outcome.resolve_left ?_
    rintro ⟨definition, read⟩
    exact flaw.ofPairs_ne_ok (ofProperties_eq_ok_iff.mp read)
  · rw [ofProperties, ofProperties, ofPairs_congr same]

/-- Pairs that name the fields of one service contract in several ways. -/
def respelledPairs : SortedMap String String :=
  .ofList [("tags.x", "t"), ("service.definition.1.class", "New"),
    ("service.definition.01.class", "Old"), ("service.definition.+1.groupId", "g"),
    ("service.definition.001.artifactId", "a"), ("service.definition.1.version", "1"),
    ("service.definition.1.", "?")]

/-- The definition of `respelledPairs`. -/
def respelled : Definition :=
  { Definition.bare .controllerService "S" with
    tags := .ofList ["t"], serviceApis := .ofList [⟨"New", "g", "a", "1"⟩] }

/-- What `respelledPairs` describe, with another pair or without it, and pairs that are refused. -/
theorem ofProperties_describes_respelled :
    ofProperties .controllerService "S" respelledPairs = .ok respelled ∧
      Describes .controllerService "S" respelledPairs respelled ∧
      ofProperties .controllerService "S" (respelledPairs.insert "note" "!") =
        ofProperties .controllerService "S" respelledPairs ∧
      ofProperties .controllerService "S" (.ofList [("service.definition.0.class", "C")]) =
        .error (.invalidProperties (.missingField 0 "groupId")) ∧
      Flaw (.ofList [("service.definition.0.class", "C")]) (.missingField 0 "groupId") := by
  have law := ofProperties_describes .controllerService "S" respelledPairs
  have read : ofProperties .controllerService "S" respelledPairs = .ok respelled := by
    decide +kernel
  have failed : ofProperties .controllerService "S"
      (.ofList [("service.definition.0.class", "C")]) =
        .error (.invalidProperties (.missingField 0 "groupId")) := by
    decide +kernel
  have silent : ¬ IsDescriptive "note" := by
    rintro (same | same | ⟨start, member, rest, spelled⟩)
    · exact absurd same (by decide)
    · exact absurd same (by decide)
    · have follows := after?_eq_some_iff.mpr spelled
      simp only [List.mem_cons, List.not_mem_nil, or_false] at member
      rcases member with rfl | rfl | rfl <;> cases follows
  obtain ⟨fault, flaw, equal⟩ :=
    (ofProperties_describes .controllerService "S" _).2.2.1 _ failed
  cases equal
  refine ⟨read, ((law.1 respelled).mp read).2, law.2.2.2 _ fun key descriptive => ?_, failed, flaw⟩
  rw [SortedMap.find?_insert, if_neg]
  rw [Std.compare_eq_iff_eq]
  rintro rfl
  exact silent descriptive

end ExtensionCatalog.Definition
