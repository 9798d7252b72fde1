/-
**Definitions survive their properties documents.**

A definition is written as pairs, the pairs as a document; the document is read as pairs, and the
pairs are put together again.

* `mem_toProperties`: what the pairs of a definition are, each with the meaning of its key;
* `sums_draftOf`: the pairs of a document, in the order of their keys, add up to the draft that
  the definition was made of;
* `serviceOf_eq_ok_iff`: a service contract is read from its fields;
* `ofProperties_parse_renderProperties`: **reading a written definition gives the definition**, and
  what was read once survives being written and read again.
-/

import Mathlib.Data.List.Nodup
import ExtensionCatalog.Proofs.Definition.Draft
import ExtensionCatalog.Proofs.Properties.Reading

namespace ExtensionCatalog

/-- The fields of a service contract, each with the name that keys use. -/
def ServiceApi.fields (api : ServiceApi) : List (String × String) :=
  [("class", api.className), ("groupId", api.groupId), ("artifactId", api.artifactId),
    ("version", api.version)]

namespace Definition

/-- The general explanation of a definition, if it is restricted and has one. -/
def general? (definition : Definition) : Option String :=
  definition.restrictions.bind (·.generalExplanation)

/-- A pair that a definition is written with: its key, what the key means, and the value. -/
inductive States (definition : Definition) : String → Key → String → Prop
  | description {value : String} (given : definition.description = some value) :
      States definition descriptionKey .unknown value
  | tag {index : Nat} {value : String} (place : definition.tags.toList[index]? = some value) :
      States definition (tagStart ++ toString index) .tag value
  | general {value : String} (given : definition.general? = some value) :
      States definition generalKey .general value
  | restriction {restrictions : Restrictions} {restriction : Restriction}
      (restricted : definition.restrictions = some restrictions)
      (member : restriction ∈ restrictions.restrictions) :
      States definition (restrictionStart ++ restriction.identifier)
        (.restriction restriction.identifier) restriction.explanation
  | service {index : Nat} {api : ServiceApi} {field value : String}
      (place : definition.serviceApis.toList[index]? = some api)
      (member : (field, value) ∈ api.fields) :
      States definition (serviceKey index field) (.service index field) value

theorem serviceProperties_eq (api : ServiceApi) (index : Nat) :
    serviceProperties api index =
      api.fields.map fun field => (serviceKey index field.1, field.2) := rfl

/-- **The pairs of a definition.** -/
theorem mem_toProperties {definition : Definition} {pair : String × String} :
    pair ∈ definition.toProperties ↔ ∃ meaning, definition.States pair.1 meaning pair.2 := by
  obtain ⟨key, value⟩ := pair
  simp only [toProperties, List.mem_append, List.mem_map, List.mem_flatMap, Option.mem_toList,
    List.mk_mem_zipIdx_iff_getElem?, Prod.exists, restrictionProperties, serviceProperties_eq]
  constructor
  · rintro (((⟨_, given, equal⟩ | ⟨tag, index, place, equal⟩) | ⟨restrictions, restricted, inner⟩) |
      ⟨api, index, place, field, _, member, equal⟩)
    · cases equal
      exact ⟨_, .description given⟩
    · cases equal
      exact ⟨_, .tag place⟩
    · rcases inner with ⟨_, given, equal⟩ | ⟨restriction, member, equal⟩
      · cases equal
        exact ⟨_, .general (by rw [general?, restricted]; exact given)⟩
      · cases equal
        exact ⟨_, .restriction restricted member⟩
    · cases equal
      exact ⟨_, .service place member⟩
  · rintro ⟨meaning, states⟩
    cases states with
    | description given => exact .inl (.inl (.inl ⟨_, given, rfl⟩))
    | tag place => exact .inl (.inl (.inr ⟨_, _, place, rfl⟩))
    | general given =>
      obtain ⟨restrictions, restricted, given⟩ := Option.bind_eq_some_iff.mp given
      exact .inl (.inr ⟨restrictions, restricted, .inl ⟨_, given, rfl⟩⟩)
    | restriction restricted member =>
      exact .inl (.inr ⟨_, restricted, .inr ⟨_, member, rfl⟩⟩)
    | service place member => exact .inr ⟨_, _, place, _, _, member, rfl⟩

/-! ### The meaning of what is written -/

section Written

variable {definition : Definition} {general : Option String} {specific : SortedMap String String}

/-- With as many contracts as there are numbers for them, every key means what it is written for. -/
theorem keyOf_of_states (numbered : definition.serviceApis.size ≤ indexLimit)
    {key value : String} {meaning : Key} (states : definition.States key meaning value) :
    Key.of key = meaning := by
  cases states with
  | description => exact keyOf_description
  | tag => exact keyOf_tag _
  | general => exact keyOf_general
  | restriction => exact keyOf_restriction _
  | service place =>
    have within := (List.getElem?_eq_some_iff.mp place).1
    exact keyOf_service (Nat.lt_of_lt_of_le within numbered) _

theorem tagKey_injective {first second : Nat}
    (same : tagStart ++ toString first = tagStart ++ toString second) : first = second := by
  have numerals : first.repr.toList = second.repr.toList := by
    simpa [← String.toList_inj] using same
  have read := Text.Numeral.read?_repr first
  rw [numerals, Text.Numeral.read?_repr] at read
  exact (Option.some.inj read).symm

theorem fields_agree {api : ServiceApi} {field first second : String}
    (member : (field, first) ∈ api.fields) (member' : (field, second) ∈ api.fields) :
    first = second := by
  have apart : (api.fields.map (·.1)).Nodup := by
    simp only [ServiceApi.fields, List.map_cons, List.map_nil]
    decide
  have same := List.inj_on_of_nodup_map apart member member' rfl
  exact congrArg Prod.snd same

/-- **What is written for one meaning has one value**; tags all have the same meaning, so there it
is the key that tells. -/
theorem states_agree (explained : definition.restrictions = Restrictions.of? general specific)
    {key key' value value' : String} {meaning : Key} (states : definition.States key meaning value)
    (states' : definition.States key' meaning value') (tagged : meaning = .tag → key = key') :
    value = value' := by
  cases states with
  | description given =>
    cases states' with
    | description given' => exact Option.some.inj (given.symm.trans given')
  | @tag index _ place =>
    generalize means : Key.tag = meaning at states'
    cases states' with
    | @tag index' _ place' =>
      have same := tagKey_injective (tagged rfl)
      subst same
      exact Option.some.inj (place.symm.trans place')
    | _ => cases means
  | general given =>
    cases states' with
    | general given' => exact Option.some.inj (given.symm.trans given')
  | restriction restricted member =>
    generalize means : Key.restriction _ = meaning at states'
    cases states' with
    | restriction restricted' member' =>
      have made := explained.symm.trans restricted
      have made' := explained.symm.trans restricted'
      have found := (Restrictions.mem_of? made _).mp member
      have found' := (Restrictions.mem_of? made' _).mp member'
      rw [Key.restriction.inj means] at found
      exact Option.some.inj (found.symm.trans found')
    | _ => cases means
  | service place member =>
    cases states' with
    | service place' member' =>
      cases Option.some.inj (place.symm.trans place')
      exact fields_agree member member'

/-! ### The draft of what is written -/

/-- The contracts of a definition by number, each as its fields. -/
def numberedServices (definition : Definition) : SortedMap Nat (SortedMap String String) where
  toList := definition.serviceApis.toList.zipIdx.map fun (api, index) => (index, .ofList api.fields)
  ascending := by
    rw [List.pairwise_map, List.pairwise_iff_getElem]
    intro first second _ _ before
    simpa [Nat.compare_eq_lt] using before

theorem find?_numberedServices (index : Nat) :
    definition.numberedServices.find? index =
      definition.serviceApis.toList[index]?.map fun api => .ofList api.fields := by
  ext fields
  rw [SortedMap.find?_eq_some_iff, numberedServices, List.mem_map, Option.map_eq_some_iff]
  constructor
  · rintro ⟨⟨api, place⟩, member, equal⟩
    cases equal
    exact ⟨api, List.mk_mem_zipIdx_iff_getElem?.mp member, rfl⟩
  · rintro ⟨api, place, rfl⟩
    exact ⟨(api, index), List.mk_mem_zipIdx_iff_getElem?.mpr place, rfl⟩

theorem find?_fields (api : ServiceApi) (field value : String) :
    (SortedMap.ofList api.fields).find? field = some value ↔ (field, value) ∈ api.fields :=
  SortedMap.find?_ofList_eq_some_iff (fun _ _ _ => fields_agree) field value

/-- The draft that a definition is put together from. -/
def draftOf (definition : Definition) (general : Option String)
    (specific : SortedMap String String) : Draft :=
  ⟨definition.tags, general, specific, definition.numberedServices⟩

theorem general?_eq (explained : definition.restrictions = Restrictions.of? general specific) :
    definition.general? = general := by
  rw [general?, explained]
  cases made : Restrictions.of? general specific with
  | none => exact (Restrictions.of?_eq_none_iff.mp made).1.symm
  | some restrictions => exact Restrictions.generalExplanation_of? made

theorem exists_states_restriction
    (explained : definition.restrictions = Restrictions.of? general specific)
    {identifier value : String} :
    specific.find? identifier = some value ↔
      ∃ key, definition.States key (.restriction identifier) value := by
  constructor
  · intro found
    cases made : Restrictions.of? general specific with
    | none =>
      rw [(Restrictions.of?_eq_none_iff.mp made).2] at found
      cases found
    | some restrictions =>
      have member := (Restrictions.mem_of? made ⟨identifier, value⟩).mpr found
      exact ⟨_, .restriction (explained.trans made) member⟩
  · rintro ⟨key, states⟩
    cases states with
    | restriction restricted member =>
      exact (Restrictions.mem_of? (explained.symm.trans restricted) _).mp member

section Pairs

variable {pairs : List (String × String)}
  (written : ∀ pair, pair ∈ pairs ↔ ∃ meaning, definition.States pair.1 meaning pair.2)
  (explained : definition.restrictions = Restrictions.of? general specific)
  (numbered : definition.serviceApis.size ≤ indexLimit)
include written numbered

theorem exists_keyOf_iff {meaning : Key} {value : String} :
    (∃ pair ∈ pairs, Key.of pair.1 = meaning ∧ pair.2 = value) ↔
      ∃ key, definition.States key meaning value := by
  constructor
  · rintro ⟨pair, member, means, rfl⟩
    obtain ⟨meaning', states⟩ := (written pair).mp member
    cases (keyOf_of_states numbered states).symm.trans means
    exact ⟨pair.1, states⟩
  · rintro ⟨key, states⟩
    exact ⟨(key, value), (written (key, value)).mpr ⟨meaning, states⟩,
      keyOf_of_states numbered states, rfl⟩

include explained in
/-- What is said of a meaning is the value that counts for it. -/
theorem eq_lastValue {meaning : Key} (untagged : meaning ≠ .tag) {given : Option String}
    (stated : ∀ value, given = some value ↔ ∃ key, definition.States key meaning value) :
    given = lastValue pairs meaning := by
  cases given with
  | none =>
    refine (lastValue_eq_none fun pair member means => ?_).symm
    have states := (exists_keyOf_iff written numbered).mp ⟨pair, member, means, rfl⟩
    cases (stated pair.2).mpr states
  | some value =>
    obtain ⟨key, states⟩ := (stated value).mp rfl
    have there := (exists_keyOf_iff written numbered).mpr ⟨key, states⟩
    refine (lastValue_eq_some_of_unique there fun pair member means => ?_).symm
    obtain ⟨key', states'⟩ := (exists_keyOf_iff written numbered).mp ⟨pair, member, means, rfl⟩
    exact states_agree explained states' states fun tag => absurd tag untagged

include explained in
/-- **What is written adds up to the draft that the definition is put together from.** -/
theorem sums_draftOf : (definition.draftOf general specific).Sums pairs where
  wellFormed := by
    intro pair member malformed
    obtain ⟨key, states⟩ :=
      (exists_keyOf_iff written numbered).mp ⟨pair, member, malformed, rfl⟩
    cases states
  tags := by
    intro tag
    rw [exists_keyOf_iff written numbered, draftOf, SortedSet.mem_def, List.mem_iff_getElem?]
    constructor
    · rintro ⟨index, place⟩
      exact ⟨_, .tag place⟩
    · rintro ⟨key, states⟩
      cases states with
      | tag place => exact ⟨_, place⟩
  general := by
    refine eq_lastValue written explained numbered (by decide) fun value => ?_
    rw [draftOf, ← general?_eq explained]
    constructor
    · exact fun given => ⟨_, .general given⟩
    · rintro ⟨key, states⟩
      cases states with
      | general given => exact given
  restrictions := by
    intro identifier
    exact eq_lastValue written explained numbered (fun equal => by cases equal) fun value =>
      exists_states_restriction explained
  fields := by
    intro index field
    refine eq_lastValue written explained numbered (fun equal => by cases equal) fun value => ?_
    rw [Draft.field?, draftOf, find?_numberedServices, Option.bind_eq_some_iff]
    constructor
    · rintro ⟨fields, record, found⟩
      obtain ⟨api, place, rfl⟩ := Option.map_eq_some_iff.mp record
      exact ⟨_, .service place ((find?_fields ..).mp found)⟩
    · rintro ⟨key, states⟩
      cases states with
      | service place member =>
        exact ⟨_, Option.map_eq_some_iff.mpr ⟨_, place, rfl⟩, (find?_fields ..).mpr member⟩
  indices := by
    intro index
    rw [draftOf, find?_numberedServices, Option.isSome_map, Option.isSome_iff_exists]
    constructor
    · rintro ⟨api, place⟩
      have states : definition.States (serviceKey index "class") (.service index "class")
          api.className := .service place (.head _)
      obtain ⟨pair, member, means, -⟩ := (exists_keyOf_iff written numbered).mpr ⟨_, states⟩
      exact ⟨pair, member, "class", means⟩
    · rintro ⟨pair, member, field, means⟩
      obtain ⟨key, states⟩ := (exists_keyOf_iff written numbered).mp ⟨pair, member, means, rfl⟩
      cases states with
      | service place => exact ⟨_, place⟩

end Pairs

/-! ### Service contracts -/

/-- The value of a field, or that it is missing. -/
def fieldOf (index : Nat) (fields : SortedMap String String) (field : String) :
    Except PropertiesFault String :=
  match fields.find? field with
  | some value => .ok value
  | none => .error (.missingField index field)

theorem serviceOf_eq (index : Nat) (fields : SortedMap String String) :
    serviceOf index fields = do return ⟨← fieldOf index fields "class",
      ← fieldOf index fields "groupId", ← fieldOf index fields "artifactId",
      ← fieldOf index fields "version"⟩ := rfl

section Fields

variable {index : Nat} {fields : SortedMap String String} {field value : String}
  {fault : PropertiesFault}

theorem fieldOf_eq_ok_iff : fieldOf index fields field = .ok value ↔
    fields.find? field = some value := by
  rw [fieldOf]
  cases fields.find? field <;> simp

theorem fieldOf_eq_error_iff : fieldOf index fields field = .error fault ↔
    fields.find? field = none ∧ fault = .missingField index field := by
  rw [fieldOf]
  cases fields.find? field <;> simp [eq_comm]

/-- A contract is read exactly from its fields. -/
theorem serviceOf_eq_ok_iff {api : ServiceApi} : serviceOf index fields = .ok api ↔
    ∀ field ∈ api.fields, fields.find? field.1 = some field.2 := by
  obtain ⟨className, groupId, artifactId, version⟩ := api
  simp only [serviceOf_eq, Outcome.bind_eq_ok_iff, fieldOf_eq_ok_iff, ServiceApi.fields,
    List.forall_mem_cons, List.not_mem_nil, false_implies, implies_true, and_true]
  constructor
  · rintro ⟨_, first, _, second, _, third, _, fourth, equal⟩
    cases equal
    exact ⟨first, second, third, fourth⟩
  · rintro ⟨first, second, third, fourth⟩
    exact ⟨_, first, _, second, _, third, _, fourth, rfl⟩

end Fields

/-! ### Putting a definition together again -/

theorem description_of_states {key value : String}
    (states : definition.States key .unknown value) : definition.description = some value := by
  cases states with
  | description given => exact given

theorem serviceOf_fields (index : Nat) (api : ServiceApi) :
    serviceOf index (.ofList api.fields) = .ok api :=
  serviceOf_eq_ok_iff.mpr fun field member => (find?_fields api field.1 field.2).mpr member

theorem mapM_serviceOf_numberedServices :
    definition.numberedServices.toList.mapM (fun (index, fields) => serviceOf index fields) =
      .ok definition.serviceApis.toList := by
  rw [numberedServices, List.mapM_map]
  have known : ∀ item ∈ definition.serviceApis.toList.zipIdx,
      serviceOf item.2 (.ofList item.1.fields) = .ok item.1 :=
    fun item _ => serviceOf_fields item.2 item.1
  refine (Outcome.mapM_eq_ok known).trans ?_
  rw [List.zipIdx_map_fst]

/-- **Pairs that say what a definition says describe it.** -/
theorem ofPairs_of_written (explained : definition.restrictions = Restrictions.of? general specific)
    (numbered : definition.serviceApis.size ≤ indexLimit) {pairs : SortedMap String String}
    (written : ∀ pair, pair ∈ pairs.toList ↔
      ∃ meaning, definition.States pair.1 meaning pair.2) :
    ofPairs definition.extensionType definition.name pairs = .ok definition := by
  have sums := sums_draftOf written explained numbered
  have collected : pairs.toList.foldlM Draft.add default =
      .ok (definition.draftOf general specific) := by
    obtain ⟨draft, collected⟩ := Draft.exists_foldlM sums.wellFormed default
    rw [collected, (Draft.sums_of_foldlM collected).unique sums]
  have description : pairs.find? descriptionKey = definition.description := by
    ext value
    rw [SortedMap.find?_eq_some_iff, written]
    constructor
    · rintro ⟨meaning, states⟩
      cases (keyOf_of_states numbered states).symm.trans keyOf_description
      exact description_of_states states
    · exact fun given => ⟨_, .description given⟩
  have services : (definition.draftOf general specific).services.toList.mapM
      (fun (index, fields) => serviceOf index fields) = .ok definition.serviceApis.toList :=
    mapM_serviceOf_numberedServices
  have whole : ofPairs definition.extensionType definition.name pairs = .ok ⟨
      definition.extensionType, definition.name, pairs.find? descriptionKey, definition.tags,
      Restrictions.of? general specific, .ofList definition.serviceApis.toList⟩ := by
    rw [ofPairs]
    exact Outcome.bind_eq_ok_iff.mpr
      ⟨_, collected, Outcome.bind_eq_ok_iff.mpr ⟨_, services, rfl⟩⟩
  rw [whole, description, ← explained, SortedSet.ofList_toList]

/-- What is wrong with pairs is an error of their document; otherwise they describe a definition. -/
theorem ofProperties_eq_ok_iff {extensionType : ExtensionType} {name : String}
    {pairs : SortedMap String String} :
    ofProperties extensionType name pairs = .ok definition ↔
      ofPairs extensionType name pairs = .ok definition := by
  rw [ofProperties]
  split
  · next described => rw [described]; simp
  · next failed => rw [failed]; simp

/-- The pairs of the document of a definition are those that the definition is written with. -/
theorem mem_collected_toProperties
    (explained : definition.restrictions = Restrictions.of? general specific)
    (numbered : definition.serviceApis.size ≤ indexLimit) (pair : String × String) :
    pair ∈ (SortedMap.ofList definition.toProperties).toList ↔
      ∃ meaning, definition.States pair.1 meaning pair.2 := by
  rw [← mem_toProperties, ← SortedMap.find?_eq_some_iff, SortedMap.find?_ofList_eq_some_iff]
  intro key value value' member member'
  obtain ⟨meaning, states⟩ := mem_toProperties.mp member
  obtain ⟨meaning', states'⟩ := mem_toProperties.mp member'
  cases (keyOf_of_states numbered states).symm.trans (keyOf_of_states numbered states')
  exact states_agree explained states states' fun _ => rfl

/-- **A definition survives its document**: what is read is what was written. -/
theorem ofProperties_collected
    (explained : definition.restrictions = Restrictions.of? general specific)
    (numbered : definition.serviceApis.size ≤ indexLimit) :
    ofProperties definition.extensionType definition.name (.ofList definition.toProperties) =
      .ok definition :=
  ofProperties_eq_ok_iff.mpr <|
    ofPairs_of_written explained numbered (mem_collected_toProperties explained numbered)

/-- What pairs describe has explanations for its restrictions and a number for each contract. -/
theorem ofPairs_inversion {extensionType : ExtensionType} {name : String}
    {pairs : SortedMap String String}
    (described : ofPairs extensionType name pairs = .ok definition) :
    definition.extensionType = extensionType ∧ definition.name = name ∧
      (∃ general specific, definition.restrictions = Restrictions.of? general specific) ∧
      definition.serviceApis.size ≤ indexLimit := by
  rw [ofPairs] at described
  obtain ⟨draft, collected, rest⟩ := Outcome.bind_eq_ok_iff.mp described
  obtain ⟨services, read, equal⟩ := Outcome.bind_eq_ok_iff.mp rest
  cases equal
  have sums := Draft.sums_of_foldlM collected
  have below : ∀ record ∈ draft.services.toList, record.1 < indexLimit := by
    intro record member
    have found := (SortedMap.find?_eq_some_iff ..).mpr member
    obtain ⟨pair, -, field, means⟩ := (sums.indices record.1).mp (by rw [found]; rfl)
    exact index_lt_of_keyOf means
  have records : draft.services.toList.length ≤ indexLimit - 0 :=
    SortedMap.length_le_of_ascending draft.services.ascending 0 (fun _ _ => Nat.zero_le _) below
  have each : draft.services.toList.length = services.length :=
    (Outcome.mapM_eq_ok_iff.mp read).length_eq
  have collapsed : (SortedSet.ofList services).size ≤ services.length :=
    SortedSet.size_ofList_le services
  refine ⟨rfl, rfl, ⟨_, _, rfl⟩, ?_⟩
  rw [Nat.sub_zero] at records
  exact Nat.le_trans collapsed (each ▸ records)

end Written

/-- **Reading a written definition gives the definition.** The restrictions are such as are made
of explanations, and the contracts fit the machine word that numbers them, as every collection in
memory does. Whatever was read from pairs is of this kind, so it survives being written and read
again. -/
theorem ofProperties_parse_renderProperties :
    (∀ (definition : Definition) (general : Option String) (specific : SortedMap String String),
      definition.restrictions = Restrictions.of? general specific →
      definition.serviceApis.size ≤ indexLimit →
      ∃ pairs, Properties.parse definition.renderProperties = .ok pairs ∧
        ofProperties definition.extensionType definition.name pairs = .ok definition) ∧
    ∀ (extensionType : ExtensionType) (name : String) (pairs : SortedMap String String)
      (definition : Definition), ofProperties extensionType name pairs = .ok definition →
      (∃ general specific, definition.restrictions = Restrictions.of? general specific) ∧
      ∃ again, Properties.parse definition.renderProperties = .ok again ∧
        ofProperties extensionType name again = .ok definition := by
  constructor
  · intro definition general specific explained numbered
    exact ⟨_, Properties.parse_render _, ofProperties_collected explained numbered⟩
  · intro extensionType name pairs definition described
    obtain ⟨rfl, rfl, ⟨general, specific, explained⟩, numbered⟩ :=
      ofPairs_inversion (ofProperties_eq_ok_iff.mp described)
    exact ⟨⟨general, specific, explained⟩, _, Properties.parse_render _,
      ofProperties_collected explained numbered⟩

/-- A restricted definition with blanks, separators, a supplementary character and a line feed. -/
def cacheService : Definition where
  extensionType := .controllerService
  name := "org.example.Cache"
  description := some " \\ = #"
  tags := .ofList ["é", "😀"]
  restrictions := Restrictions.of? (some "") (.ofList [("read files", ":")])
  serviceApis := .ofList [⟨"", "!", "\n", "1"⟩]

/-- Pairs that describe `cacheService`; two keys name the same tag, and two the same field. -/
def cachePairs : SortedMap String String :=
  .ofList [("capability.description", " \\ = #"), ("tags.0", "é"), ("tags.x", "é"), ("tags.", "😀"),
    ("restricted.description", ""), ("restriction.read files", ":"),
    ("service.definition.0.class", ""), ("service.definition.00.groupId", "!"),
    ("service.definition.0.groupId", "?"), ("service.definition.0.artifactId", "\n"),
    ("service.definition.0.version", "1")]

/-- Both halves of the law at `cacheService`. -/
theorem ofProperties_parse_renderProperties_cacheService :
    cacheService.restrictions = Restrictions.of? (some "") (.ofList [("read files", ":")]) ∧
      cacheService.serviceApis.size ≤ indexLimit ∧
      (∃ pairs, Properties.parse cacheService.renderProperties = .ok pairs ∧
        ofProperties cacheService.extensionType cacheService.name pairs = .ok cacheService) ∧
      ofProperties .controllerService "org.example.Cache" cachePairs = .ok cacheService ∧
      (∃ general specific, cacheService.restrictions = Restrictions.of? general specific) ∧
      ∃ again, Properties.parse cacheService.renderProperties = .ok again ∧
        ofProperties .controllerService "org.example.Cache" again = .ok cacheService := by
  have explained :
      cacheService.restrictions = Restrictions.of? (some "") (.ofList [("read files", ":")]) := rfl
  have numbered : cacheService.serviceApis.size ≤ indexLimit := by decide
  have described :
      ofProperties .controllerService "org.example.Cache" cachePairs = .ok cacheService := by
    decide +kernel
  exact ⟨explained, numbered,
    ofProperties_parse_renderProperties.1 cacheService _ _ explained numbered, described,
    ofProperties_parse_renderProperties.2 _ _ _ _ described⟩

end Definition

end ExtensionCatalog
