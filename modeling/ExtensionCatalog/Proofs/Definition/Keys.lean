/-
**What the keys of a properties document mean.**

Every key that a definition is written with means what it was written for, and what any other key
means can be told from its form.

* `after?_eq_some_iff`: what follows the start of a key;
* `keyOf_tag`, `keyOf_general`, `keyOf_restriction`, `keyOf_service`: the meaning of written keys;
* `IsServiceKey`: the keys of a field of a service contract, in all spellings of its number;
* `serviceField?_eq_some_iff`: what is read behind `serviceStart`;
* `Spells`, `keyOf_eq_iff`: **what keys mean**, form by form.
-/

import Mathlib.Data.List.TakeDrop
import Mathlib.Data.List.TakeWhile
import ExtensionCatalog.Definition.Properties

namespace ExtensionCatalog.Definition

open Text

/-- What follows the start of a key is the rest of the key. -/
theorem after?_eq_some_iff {start key rest : String} :
    after? start key = some rest ↔ key = start ++ rest := by
  unfold after?
  constructor
  · intro found
    split at found
    · next begins =>
      obtain ⟨tail, whole⟩ := List.isPrefixOf_iff_prefix.mp begins
      cases found
      rw [← String.toList_inj, String.toList_append, String.toList_ofList, ← whole]
      simp [← String.length_toList]
    · cases found
  · rintro rfl
    simp [← String.length_toList]

theorem after?_append (start rest : String) : after? start (start ++ rest) = some rest :=
  after?_eq_some_iff.mpr rfl

/-- The key of a field of the service contract with a number. -/
def serviceKey (index : Nat) (field : String) : String :=
  serviceStart ++ toString index ++ "." ++ field

theorem keyOf_description : Key.of descriptionKey = .unknown := by decide

theorem keyOf_general : Key.of generalKey = .general := by decide

theorem keyOf_tag (rest : String) : Key.of (tagStart ++ rest) = .tag := by
  rw [Key.of, after?_append]
  rfl

theorem keyOf_restriction (identifier : String) :
    Key.of (restrictionStart ++ identifier) = .restriction identifier := by
  have noTag : after? tagStart (restrictionStart ++ identifier) = none := by
    simp [after?, tagStart, restrictionStart]
  have notGeneral : restrictionStart ++ identifier ≠ generalKey := by
    simp [← String.toList_inj, restrictionStart, generalKey]
  rw [Key.of, noTag, if_neg (by simp), if_neg notGeneral, after?_append]

/-! ### Service keys -/

/-- Without a point there is no number. -/
theorem serviceField?_of_not_mem {rest : String} (whole : '.' ∉ rest.toList) :
    serviceField? rest = none := by
  have passed : ∀ c ∈ rest.toList, (c != '.') = true := by
    intro c member
    rw [bne_iff_ne]
    rintro rfl
    exact whole member
  rw [serviceField?, List.span_eq_takeWhile_dropWhile,
    List.dropWhile_eq_nil_iff.mpr passed]

/-- The first point stands between the number and the field. -/
theorem serviceField?_append_point {numeral : String} (free : '.' ∉ numeral.toList)
    (field : String) : serviceField? (numeral ++ "." ++ field) =
      (Numeral.read? 10 numeral.toList).bind fun index =>
        if index < indexLimit then some (index, field) else none := by
  have passed : ∀ c ∈ numeral.toList, (c != '.') = true := by
    intro c member
    rw [bne_iff_ne]
    rintro rfl
    exact free member
  have split : (numeral ++ "." ++ field).toList.span (· != '.') =
      (numeral.toList, '.' :: field.toList) := by
    rw [List.span_eq_takeWhile_dropWhile, String.toList_append, String.toList_append,
      List.append_assoc, List.takeWhile_append_of_pos passed, List.dropWhile_append_of_pos passed]
    simp
  simp only [serviceField?, split, String.ofList_toList]
  rfl

/-- A text with a point in it, cut at the first one. -/
theorem exists_eq_append_point {rest : String} (pointed : '.' ∈ rest.toList) :
    ∃ numeral field : String, rest = numeral ++ "." ++ field ∧ '.' ∉ numeral.toList := by
  obtain ⟨numeral, field, whole, free⟩ := List.eq_append_cons_of_mem pointed
  refine ⟨.ofList numeral, .ofList field, ?_, by simpa using free⟩
  rw [← String.toList_inj, whole]
  simp [String.toList_append]

theorem not_mem_of_isDecimal {numeral : List Char} {number : Nat}
    (decimal : Numeral.IsDecimal numeral number) : '.' ∉ numeral := by
  obtain ⟨digits, -, each, -, spelled⟩ := decimal
  have free : '.' ∉ digits := fun member => absurd (each '.' member) (by decide)
  rcases spelled with rfl | rfl
  · exact List.not_mem_cons_of_ne_of_not_mem (by decide) free
  · exact free

theorem serviceField?_eq_some_iff {rest field : String} {index : Nat} :
    serviceField? rest = some (index, field) ↔ ∃ numeral : String,
      rest = numeral ++ "." ++ field ∧ Numeral.IsDecimal numeral.toList index ∧
        index < indexLimit := by
  constructor
  · intro found
    by_cases pointed : '.' ∈ rest.toList
    · obtain ⟨numeral, behind, rfl, free⟩ := exists_eq_append_point pointed
      rw [serviceField?_append_point free] at found
      obtain ⟨number, read, bounded⟩ := Option.bind_eq_some_iff.mp found
      obtain ⟨below, equal⟩ := Option.ite_none_right_eq_some.mp bounded
      cases equal
      exact ⟨numeral, rfl, Numeral.read?_ten_eq_some_iff.mp read, below⟩
    · rw [serviceField?_of_not_mem pointed] at found
      cases found
  · rintro ⟨numeral, rfl, decimal, below⟩
    rw [serviceField?_append_point (not_mem_of_isDecimal decimal),
      Numeral.read?_ten_eq_some_iff.mpr decimal, Option.bind_some, if_pos below]

/-- A key of a field of the service contract with a number, in any spelling of the number. -/
def IsServiceKey (key : String) (index : Nat) (field : String) : Prop :=
  ∃ numeral : String, key = serviceStart ++ (numeral ++ "." ++ field) ∧
    Numeral.IsDecimal numeral.toList index ∧ index < indexLimit

theorem keyOf_serviceStart (rest : String) :
    Key.of (serviceStart ++ rest) =
      match serviceField? rest with
      | some (index, field) => .service index field
      | none => .malformed := by
  have noTag : after? tagStart (serviceStart ++ rest) = none := by
    simp [after?, tagStart, serviceStart]
  have notGeneral : serviceStart ++ rest ≠ generalKey := by
    simp [← String.toList_inj, serviceStart, generalKey]
  have noRestriction : after? restrictionStart (serviceStart ++ rest) = none := by
    simp [after?, restrictionStart, serviceStart]
  have behind : after? serviceStart (serviceStart ++ rest) = some rest :=
    after?_append serviceStart rest
  cases read : serviceField? rest with
  | none => simp [Key.of, noTag, notGeneral, noRestriction, behind, read]
  | some named => simp [Key.of, noTag, notGeneral, noRestriction, behind, read]

/-- The forms of keys that mean anything. -/
theorem keyOf_cases (key : String) :
    (∃ rest, key = tagStart ++ rest) ∨ key = generalKey ∨
      (∃ identifier, key = restrictionStart ++ identifier) ∨
      (∃ rest, key = serviceStart ++ rest) ∨ Key.of key = .unknown := by
  unfold Key.of
  split
  · next tagged =>
    obtain ⟨rest, follows⟩ := Option.isSome_iff_exists.mp tagged
    exact .inl ⟨rest, after?_eq_some_iff.mp follows⟩
  · split
    · next general => exact .inr (.inl general)
    · split
      · next identifier follows =>
        exact .inr (.inr (.inl ⟨identifier, after?_eq_some_iff.mp follows⟩))
      · split
        · next rest follows =>
          exact .inr (.inr (.inr (.inl ⟨rest, after?_eq_some_iff.mp follows⟩)))
        · exact .inr (.inr (.inr (.inr rfl)))

/-! ### What a key means, by its form -/

/-- The forms of keys and what they mean. -/
inductive Spells : String → Key → Prop
  | tag (rest : String) : Spells (tagStart ++ rest) .tag
  | general : Spells generalKey .general
  | restriction (identifier : String) :
      Spells (restrictionStart ++ identifier) (.restriction identifier)
  | service {key field : String} {index : Nat} (named : IsServiceKey key index field) :
      Spells key (.service index field)
  | unseparated {rest : String} (whole : '.' ∉ rest.toList) :
      Spells (serviceStart ++ rest) .malformed
  | unnumbered {numeral field : String} (first : '.' ∉ numeral.toList)
      (unread : ∀ index < indexLimit, ¬ Numeral.IsDecimal numeral.toList index) :
      Spells (serviceStart ++ (numeral ++ "." ++ field)) .malformed

/-- What is no number and field has no point, or no number in front of the first one. -/
theorem spells_of_serviceField?_eq_none {rest : String} (nothing : serviceField? rest = none) :
    Spells (serviceStart ++ rest) .malformed := by
  by_cases pointed : '.' ∈ rest.toList
  · obtain ⟨numeral, field, rfl, free⟩ := exists_eq_append_point pointed
    refine .unnumbered free fun index below decimal => ?_
    rw [serviceField?_eq_some_iff.mpr ⟨numeral, rfl, decimal, below⟩] at nothing
    cases nothing
  · exact .unseparated pointed

theorem serviceField?_eq_none_of_unread {numeral field : String} (first : '.' ∉ numeral.toList)
    (unread : ∀ index < indexLimit, ¬ Numeral.IsDecimal numeral.toList index) :
    serviceField? (numeral ++ "." ++ field) = none := by
  rw [serviceField?_append_point first, Option.bind_eq_none_iff]
  intro index read
  rw [if_neg]
  exact fun below => unread index below (Numeral.read?_ten_eq_some_iff.mp read)

/-- **A key means what its form says.** -/
theorem spells_of_keyOf {key : String} (known : Key.of key ≠ .unknown) :
    Spells key (Key.of key) := by
  rcases keyOf_cases key with ⟨rest, rfl⟩ | rfl | ⟨identifier, rfl⟩ | ⟨rest, rfl⟩ | unknown
  · rw [keyOf_tag]
    exact .tag rest
  · rw [keyOf_general]
    exact .general
  · rw [keyOf_restriction]
    exact .restriction identifier
  · rw [keyOf_serviceStart]
    split
    · next index field found =>
      obtain ⟨numeral, rfl, decimal, below⟩ := serviceField?_eq_some_iff.mp found
      exact .service ⟨numeral, rfl, decimal, below⟩
    · next nothing => exact spells_of_serviceField?_eq_none nothing
  · exact absurd unknown known

/-- The form of a key determines its meaning. -/
theorem keyOf_of_spells {key : String} {meaning : Key} (spells : Spells key meaning) :
    Key.of key = meaning := by
  cases spells with
  | tag rest => exact keyOf_tag rest
  | general => exact keyOf_general
  | restriction identifier => exact keyOf_restriction identifier
  | service named =>
    obtain ⟨numeral, rfl, decimal, below⟩ := named
    rw [keyOf_serviceStart, serviceField?_eq_some_iff.mpr ⟨numeral, rfl, decimal, below⟩]
  | unseparated whole => rw [keyOf_serviceStart, serviceField?_of_not_mem whole]
  | unnumbered first unread =>
    rw [keyOf_serviceStart, serviceField?_eq_none_of_unread first unread]

theorem keyOf_eq_iff {key : String} {meaning : Key} (known : meaning ≠ .unknown) :
    Key.of key = meaning ↔ Spells key meaning := by
  refine ⟨fun means => ?_, keyOf_of_spells⟩
  subst means
  exact spells_of_keyOf known

theorem keyOf_eq_service_iff {key field : String} {index : Nat} :
    Key.of key = .service index field ↔ IsServiceKey key index field := by
  rw [keyOf_eq_iff (by simp)]
  refine ⟨fun spells => ?_, .service⟩
  cases spells with
  | service named => exact named

/-- The key that a field is written with means that field. -/
theorem keyOf_service {index : Nat} (small : index < indexLimit) (field : String) :
    Key.of (serviceKey index field) = .service index field := by
  refine keyOf_eq_service_iff.mpr ⟨toString index, ?_, ?_, small⟩
  · simp [serviceKey, String.append_assoc]
  · exact Numeral.read?_ten_eq_some_iff.mp (Numeral.read?_repr index)

/-- The number of a service key lies below the limit. -/
theorem index_lt_of_keyOf {key field : String} {index : Nat}
    (meaning : Key.of key = .service index field) : index < indexLimit := by
  obtain ⟨numeral, -, -, below⟩ := keyOf_eq_service_iff.mp meaning
  exact below

end ExtensionCatalog.Definition
