/-
**Restrictions show in every format, and nothing else shows as restrictions.**

Every format has its own sign of a restricted extension: a key of the properties, an element that is
not empty, an object. Each stands exactly for restrictions that have a general explanation, be it
empty, and is read back as such.

* `IsRestrictionKey`: the keys that speak of restrictions;
* `ShowsRestricted`, `ShowsUnrestricted`: what all formats show;
* `showsRestricted`, `showsUnrestricted`: when they do.
-/

import ExtensionCatalog.Definition.Document
import ExtensionCatalog.Proofs.Definition.RoundTrip
import ExtensionCatalog.Proofs.Definition.XmlDocument

namespace ExtensionCatalog.Definition

variable {definition : Definition}

/-- The keys that speak of restrictions. -/
def IsRestrictionKey (key : String) : Prop :=
  key = generalKey ∨ ∃ identifier, key = restrictionStart ++ identifier

/-- Every format shows that the extension is restricted, and why. -/
structure ShowsRestricted (definition : Definition) (explanation : String) : Prop where
  /-- A line of the properties states the explanation. -/
  line : Properties.pairLine (generalKey, explanation) ∈
    Text.lines definition.renderProperties.toList
  /-- The properties are read as pairs with the explanation, and these describe an extension that is
  restricted. -/
  readBack : ∃ pairs, Properties.parse definition.renderProperties = .ok pairs ∧
    pairs.find? generalKey = some explanation ∧
    ∀ extensionType name, ∃ again, ofProperties extensionType name pairs = .ok again ∧
      again.restrictions.isSome ∧ again.restrictions = definition.restrictions
  /-- The entry has one element `restrictions`, which begins with the explanation. -/
  element : ∀ name, ∃ children rest, definition.toElement name = .block name children ∧
    children.filter (·.name == "restrictions") =
      [.block "restrictions" (.text "explanation" explanation :: rest)]
  /-- The restrictions are an object, which holds the explanation. -/
  object : ∃ entries members, definition.toDocument = .table entries ∧
    Document.lookup "restrictions" entries = some (.table members) ∧
    Document.lookup "general_explanation" members = some (.text explanation)

/-- Every format shows that the extension is not restricted. -/
structure ShowsUnrestricted (definition : Definition) : Prop where
  /-- No line of the properties starts like a key that speaks of restrictions. -/
  lines : ∀ line ∈ Text.lines definition.renderProperties.toList,
    ¬ generalKey.toList <+: line ∧ ¬ restrictionStart.toList <+: line
  /-- The properties are read as pairs without such a key. -/
  keys : ∃ pairs, Properties.parse definition.renderProperties = .ok pairs ∧
    ∀ key, IsRestrictionKey key → pairs.find? key = none
  /-- The entry has one element `restrictions`, which is empty. -/
  element : ∀ name, ∃ children, definition.toElement name = .block name children ∧
    children.filter (·.name == "restrictions") = [.empty "restrictions"]
  /-- There is null in the place of an object. -/
  null : ∃ entries, definition.toDocument = .table entries ∧
    Document.lookup "restrictions" entries = some .null

/-! ### Properties -/

theorem lines_renderProperties (definition : Definition) :
    Text.lines definition.renderProperties.toList =
      definition.toProperties.map Properties.pairLine := by
  rw [renderProperties, Properties.render, String.toList_ofList, Properties.lines_render]

/-- The type and the name are not among the properties: whichever are supplied, the rest is read
back. -/
theorem ofProperties_collected_as {general : Option String} {specific : SortedMap String String}
    (explained : definition.restrictions = Restrictions.of? general specific)
    (numbered : definition.serviceApis.size ≤ indexLimit) (extensionType : ExtensionType)
    (name : String) :
    ofProperties extensionType name (.ofList definition.toProperties) =
      .ok { definition with extensionType, name } :=
  @ofProperties_collected { definition with extensionType, name } _ _ explained numbered

/-- The letters that the other keys begin with. -/
def otherInitials : List Char := ['c', 't', 's']

/-- The keys of an extension that is not restricted begin with another letter. -/
theorem exists_initial (unrestricted : definition.restrictions = none)
    {key value : String} {meaning : Key} (states : definition.States key meaning value) :
    ∃ first ∈ otherInitials, key.toList.head? = some first := by
  cases states with
  | description => exact ⟨'c', by decide, rfl⟩
  | tag =>
    rw [String.toList_append]
    exact ⟨'t', by decide, rfl⟩
  | general given =>
    rw [general?, unrestricted] at given
    cases given
  | restriction restricted =>
    rw [unrestricted] at restricted
    cases restricted
  | service =>
    rw [serviceKey, String.append_assoc, String.append_assoc, String.toList_append]
    exact ⟨'s', by decide, rfl⟩

theorem head?_of_isRestrictionKey {key : String} (speaks : IsRestrictionKey key) :
    key.toList.head? = some 'r' := by
  rcases speaks with rfl | ⟨identifier, rfl⟩
  · rfl
  · rw [String.toList_append]
    rfl

theorem escapeChar_initial : ∀ c ∈ otherInitials, Properties.escapeChar true c = [c] := by
  simp only [otherInitials, List.forall_mem_cons]
  exact ⟨by decide, by decide, by decide, List.forall_mem_nil _⟩

/-- A letter at the start of a key is the start of its line. -/
theorem head?_pairLine {pair : String × String} {first : Char} (other : first ∈ otherInitials)
    (initial : pair.1.toList.head? = some first) :
    (Properties.pairLine pair).head? = some first := by
  obtain ⟨rest, key⟩ := List.head?_eq_some_iff.mp initial
  rw [Properties.pairLine, key, Properties.escapeKey, List.flatMap_cons,
    escapeChar_initial first other]
  rfl

/-- Text that starts like a key that speaks of restrictions starts with its letter. -/
theorem not_prefix_of_initial {first : Char} (other : first ∈ otherInitials) {line : List Char}
    (initial : line.head? = some first) {key : String} (speaks : key.toList.head? = some 'r') :
    ¬ key.toList <+: line := by
  rintro ⟨rest, rfl⟩
  rw [List.head?_append, speaks] at initial
  cases initial
  exact absurd other (by decide)

/-! ### XML and JSON -/

theorem name_ofText? (name : String) (content : Option String) :
    (Xml.Element.ofText? name content).name = name := by
  cases content <;> rfl

theorem name_ofChildren (name : String) (children : List Xml.Element) :
    (Xml.Element.ofChildren name children).name = name := by
  cases children <;> rfl

theorem name_restrictionsElement (definition : Definition) :
    definition.restrictionsElement.name = "restrictions" := by
  unfold restrictionsElement
  cases definition.restrictions <;> rfl

/-- The entry has one element about restrictions. -/
theorem exists_children (definition : Definition) (name : String) :
    ∃ children, definition.toElement name = .block name children ∧
      children.filter (·.name == "restrictions") = [definition.restrictionsElement] := by
  refine ⟨_, rfl, ?_⟩
  have services : definition.serviceElements.filter (·.name == "restrictions") = [] := by
    unfold serviceElements
    split
    · simp [name_ofChildren]
    · rfl
  have named : (Xml.Element.text "name" definition.name).name = "name" := rfl
  rw [List.filter_append, services, List.append_nil, commonElements_eq]
  simp [named, name_ofText?, name_ofChildren, name_restrictionsElement]

/-- The document has one entry about restrictions. -/
theorem exists_entries (definition : Definition) :
    ∃ entries, definition.toDocument = .table entries ∧ Document.lookup "restrictions" entries =
      some ((definition.restrictions.map (·.toDocument)).getD .null) :=
  ⟨_, rfl, rfl⟩

/-! ### All formats -/

/-- **Restrictions with a general explanation show in every format**, whatever the explanation. -/
theorem showsRestricted {explanation : String} {specific : SortedMap String String}
    (explained : definition.restrictions = Restrictions.of? (some explanation) specific)
    (numbered : definition.serviceApis.size ≤ indexLimit) :
    definition.ShowsRestricted explanation := by
  have general := general?_eq explained
  obtain ⟨restrictions, restricted, given⟩ := Option.bind_eq_some_iff.mp general
  have states : definition.States generalKey .general explanation := .general general
  refine ⟨?line, ?readBack, ?element, ?object⟩
  case line =>
    rw [lines_renderProperties]
    exact List.mem_map_of_mem (mem_toProperties.mpr ⟨_, states⟩)
  case readBack =>
    refine ⟨_, Properties.parse_render _, ?_, fun extensionType name =>
      ⟨_, ofProperties_collected_as explained numbered extensionType name, ?_, rfl⟩⟩
    · rw [SortedMap.find?_eq_some_iff, mem_collected_toProperties explained numbered]
      exact ⟨_, states⟩
    · rw [restricted]
      rfl
  case element =>
    intro name
    obtain ⟨children, whole, only⟩ := definition.exists_children name
    refine ⟨children, restrictions.restrictions.toList.map (·.toElement), whole, ?_⟩
    rw [only, restrictionsElement, restricted, Option.map_some, Option.getD_some,
      Restrictions.toElement, given]
    rfl
  case object =>
    obtain ⟨entries, whole, found⟩ := definition.exists_entries
    rw [restricted] at found
    refine ⟨entries, _, whole, found, ?_⟩
    change some (Document.ofText? restrictions.generalExplanation) = _
    rw [given]
    rfl

/-- **Without restrictions no format shows any.** -/
theorem showsUnrestricted (unrestricted : definition.restrictions = none) :
    definition.ShowsUnrestricted := by
  have initial : ∀ pair ∈ definition.toProperties,
      ∃ first ∈ otherInitials, pair.1.toList.head? = some first := by
    intro pair member
    obtain ⟨meaning, states⟩ := mem_toProperties.mp member
    exact exists_initial unrestricted states
  refine ⟨?lines, ?keys, ?element, ?null⟩
  case lines =>
    intro line member
    rw [lines_renderProperties] at member
    obtain ⟨pair, written, rfl⟩ := List.mem_map.mp member
    obtain ⟨first, other, begins⟩ := initial pair written
    have begins := head?_pairLine other begins
    exact ⟨not_prefix_of_initial other begins rfl, not_prefix_of_initial other begins rfl⟩
  case keys =>
    refine ⟨_, Properties.parse_render _, fun key speaks => ?_⟩
    rw [SortedMap.find?_ofList, Option.map_eq_none_iff, List.find?_eq_none]
    intro pair member same
    obtain ⟨first, other, begins⟩ := initial pair (List.mem_reverse.mp member)
    rw [decide_eq_true_eq.mp same, head?_of_isRestrictionKey speaks] at begins
    cases begins
    exact absurd other (by decide)
  case element =>
    intro name
    obtain ⟨children, whole, only⟩ := definition.exists_children name
    refine ⟨children, whole, ?_⟩
    rw [only, restrictionsElement, unrestricted]
    rfl
  case null =>
    obtain ⟨entries, whole, found⟩ := definition.exists_entries
    refine ⟨entries, whole, ?_⟩
    rw [found, unrestricted]
    rfl

end ExtensionCatalog.Definition
