/-
**Outcomes: when a sequence of actions yields a value.**

* `bind_eq_ok_iff`: two actions in a row;
* `mapM_eq_ok_iff`: one action for each item of a list;
* `mem_of_mapM_eq_ok`: which values come out;
* `mapM_eq_ok`: actions whose values are known;
* `eq_ok_of_toOption`: the value that is left when the error is forgotten;
* `bind_eq_error_iff`, `mapError_eq_error_iff`, `mapM_eq_error_iff`, `foldlM_eq_error_iff`: which
  error comes out;
* `fails_bind_iff`, `fails_mapM_iff`: whether any error comes out.
-/

import Mathlib.Data.List.Forall2

namespace ExtensionCatalog.Outcome

variable {ε α β : Type}

/-- Two actions in a row yield a value exactly when both do. -/
theorem bind_eq_ok_iff {first : Except ε α} {next : α → Except ε β} {result : β} :
    (first >>= next) = .ok result ↔ ∃ value, first = .ok value ∧ next value = .ok result := by
  cases first with
  | error fault => exact iff_of_false (fun equal => by cases equal) (by simp)
  | ok value => simp [bind, Except.bind]

/-- Two continuations of an action that agree on its value come to the same. -/
theorem bind_congr_of_ok {first : Except ε α} {next other : α → Except ε β}
    (agree : ∀ value, first = .ok value → next value = other value) :
    first >>= next = first >>= other := by
  cases first with
  | error fault => rfl
  | ok value => exact agree value rfl

theorem map_eq_ok_iff {action : Except ε α} {change : α → β} {result : β} :
    action.map change = .ok result ↔ ∃ value, action = .ok value ∧ change value = result := by
  cases action with
  | error fault => exact iff_of_false (fun equal => by cases equal) (by simp)
  | ok value => simp [Except.map]

theorem mapError_eq_ok_iff {ε' : Type} {action : Except ε α} {change : ε → ε'} {result : α} :
    action.mapError change = .ok result ↔ action = .ok result := by
  cases action with
  | error fault => exact iff_of_false (fun equal => by cases equal) (fun equal => by cases equal)
  | ok value => simp [Except.mapError]

/-- A value with a label before it. -/
theorem labelled_eq_ok_iff {label other : β} {action : Except ε α} {value : α} :
    (do return (label, ← action) : Except ε (β × α)) = .ok (other, value) ↔
      label = other ∧ action = .ok value := by
  rw [bind_eq_ok_iff]
  constructor
  · rintro ⟨found, yields, equal⟩
    cases equal
    exact ⟨rfl, yields⟩
  · rintro ⟨rfl, yields⟩
    exact ⟨value, yields, rfl⟩

/-- The actions for the items of a list yield values exactly when each yields its own. -/
theorem mapM_eq_ok_iff {action : α → Except ε β} {items : List α} {results : List β} :
    items.mapM action = .ok results ↔
      List.Forall₂ (fun item result => action item = .ok result) items results := by
  induction items generalizing results with
  | nil =>
    rw [List.mapM_nil, List.forall₂_nil_left_iff]
    constructor
    · rintro ⟨⟩
      rfl
    · rintro rfl
      rfl
  | cons item items hypothesis =>
    rw [List.mapM_cons, bind_eq_ok_iff, List.forall₂_cons_left_iff]
    constructor
    · rintro ⟨result, here, rest⟩
      obtain ⟨others, later, equal⟩ := bind_eq_ok_iff.mp rest
      cases equal
      exact ⟨result, others, here, hypothesis.mp later, rfl⟩
    · rintro ⟨result, others, here, later, rfl⟩
      exact ⟨result, here, bind_eq_ok_iff.mpr ⟨others, hypothesis.mpr later, rfl⟩⟩

/-- What comes out are the values of the actions. -/
theorem mem_of_mapM_eq_ok {action : α → Except ε β} {items : List α} {results : List β}
    (mapped : items.mapM action = .ok results) {result : β} :
    result ∈ results ↔ ∃ item ∈ items, action item = .ok result := by
  have each := mapM_eq_ok_iff.mp mapped
  clear mapped
  induction each with
  | nil => simp
  | @cons item first items results here _ hypothesis =>
    simp only [List.mem_cons, exists_eq_or_imp, here, Except.ok.injEq]
    exact or_congr eq_comm hypothesis

/-- If values come out, every action has one. -/
theorem exists_of_mapM_eq_ok {action : α → Except ε β} {items : List α} {results : List β}
    (mapped : items.mapM action = .ok results) {item : α} (member : item ∈ items) :
    ∃ result, action item = .ok result := by
  have each := mapM_eq_ok_iff.mp mapped
  clear mapped
  induction each with
  | nil => cases member
  | cons here _ hypothesis =>
    rcases List.mem_cons.mp member with rfl | later
    · exact ⟨_, here⟩
    · exact hypothesis later

/-- Actions whose values are known yield these. -/
theorem mapM_eq_ok {action : α → Except ε β} {value : α → β} {items : List α}
    (known : ∀ item ∈ items, action item = .ok (value item)) :
    items.mapM action = .ok (items.map value) := by
  rw [mapM_eq_ok_iff, List.forall₂_map_right_iff, List.forall₂_same]
  exact known

/-- A value that is left when the error is forgotten is the value of the action. -/
theorem eq_ok_of_toOption {outcome : Except ε α} {value : α}
    (found : outcome.toOption = some value) : outcome = .ok value := by
  cases outcome with
  | error fault => cases found
  | ok other =>
    cases found
    rfl

/-! ### Errors -/

theorem ok_or_error (outcome : Except ε α) :
    (∃ value, outcome = .ok value) ∨ ∃ fault, outcome = .error fault := by
  cases outcome with
  | ok value => exact .inl ⟨value, rfl⟩
  | error fault => exact .inr ⟨fault, rfl⟩

/-- Two actions in a row fail exactly when the first one does, or the second one after it. -/
theorem bind_eq_error_iff {first : Except ε α} {next : α → Except ε β} {fault : ε} :
    (first >>= next) = .error fault ↔
      first = .error fault ∨ ∃ value, first = .ok value ∧ next value = .error fault := by
  cases first with
  | error other => simp [bind, Except.bind]
  | ok value => simp [bind, Except.bind]

theorem mapError_eq_error_iff {ε' : Type} {action : Except ε α} {change : ε → ε'} {fault : ε'} :
    action.mapError change = .error fault ↔
      ∃ cause, action = .error cause ∧ fault = change cause := by
  cases action with
  | error cause => simp [Except.mapError, eq_comm]
  | ok value => exact iff_of_false (fun equal => by cases equal) (by simp)

/-- **The first error counts.** The actions for the items of a list fail with the error of the first
one that has any. -/
theorem mapM_eq_error_iff {action : α → Except ε β} {items : List α} {fault : ε} :
    items.mapM action = .error fault ↔
      ∃ before item after, items = before ++ item :: after ∧
        (∀ earlier ∈ before, ∃ value, action earlier = .ok value) ∧
        action item = .error fault := by
  induction items with
  | nil => exact iff_of_false (fun equal => by cases equal) (by simp)
  | cons head tail hypothesis =>
    rw [List.mapM_cons, bind_eq_error_iff]
    constructor
    · rintro (here | ⟨value, yields, later⟩)
      · exact ⟨[], head, tail, rfl, by simp, here⟩
      · rcases bind_eq_error_iff.mp later with failed | ⟨others, -, equal⟩
        · obtain ⟨before, item, after, rfl, earlier, here⟩ := hypothesis.mp failed
          exact ⟨head :: before, item, after, rfl,
            List.forall_mem_cons.mpr ⟨⟨value, yields⟩, earlier⟩, here⟩
        · cases equal
    · rintro ⟨_ | ⟨first, before⟩, item, after, equal, earlier, here⟩
      · cases equal
        exact .inl here
      · cases equal
        obtain ⟨⟨value, yields⟩, earlier⟩ := List.forall_mem_cons.mp earlier
        refine .inr ⟨value, yields, bind_eq_error_iff.mpr (.inl ?_)⟩
        exact hypothesis.mpr ⟨before, item, after, rfl, earlier, here⟩

/-- Adding the items of a list one after the other fails at the first one that cannot be added to
what came of those before it. -/
theorem foldlM_eq_error_iff {step : β → α → Except ε β} {items : List α} {start : β} {fault : ε} :
    items.foldlM step start = .error fault ↔
      ∃ before item after state, items = before ++ item :: after ∧
        before.foldlM step start = .ok state ∧ step state item = .error fault := by
  induction items generalizing start with
  | nil => exact iff_of_false (fun equal => by cases equal) (by simp)
  | cons head tail hypothesis =>
    rw [List.foldlM_cons, bind_eq_error_iff]
    constructor
    · rintro (here | ⟨next, added, later⟩)
      · exact ⟨[], head, tail, start, rfl, rfl, here⟩
      · obtain ⟨before, item, after, state, rfl, earlier, here⟩ := hypothesis.mp later
        refine ⟨head :: before, item, after, state, rfl, ?_, here⟩
        exact List.foldlM_cons.trans (bind_eq_ok_iff.mpr ⟨next, added, earlier⟩)
    · rintro ⟨_ | ⟨first, before⟩, item, after, state, equal, earlier, here⟩
      · cases equal
        cases earlier
        exact .inl here
      · cases equal
        obtain ⟨next, added, earlier⟩ := bind_eq_ok_iff.mp (List.foldlM_cons.symm.trans earlier)
        exact .inr ⟨next, added, hypothesis.mpr ⟨before, item, after, state, rfl, earlier, here⟩⟩

/-- Whether an outcome is an error. -/
def Fails (outcome : Except ε α) : Prop := ∃ fault, outcome = .error fault

theorem not_fails_ok (value : α) : ¬ Fails (.ok value : Except ε α) := by
  rintro ⟨fault, equal⟩
  cases equal

/-- Two actions in a row fail exactly if one of them does, where what the first one yields does not
matter for whether the second one fails. -/
theorem fails_bind_iff {first : Except ε α} {next : α → Except ε β} {later : Prop}
    (each : ∀ value, Fails (next value) ↔ later) :
    Fails (first >>= next) ↔ Fails first ∨ later := by
  cases first with
  | error fault => exact iff_of_true ⟨fault, rfl⟩ (.inl ⟨fault, rfl⟩)
  | ok value =>
    rw [or_iff_right (not_fails_ok value), ← each value]
    rfl

/-- What becomes of a value does not matter for whether there is one. -/
theorem fails_bind_ok_iff {first : Except ε α} (change : α → β) :
    Fails (first >>= fun value => .ok (change value)) ↔ Fails first := by
  rw [fails_bind_iff fun value => iff_of_false (not_fails_ok (change value)) not_false, or_false]

/-- The actions for the items of a list fail exactly if one of them does. -/
theorem fails_mapM_iff {action : α → Except ε β} {items : List α} :
    Fails (items.mapM action) ↔ ∃ item ∈ items, Fails (action item) := by
  constructor
  · rintro ⟨fault, failed⟩
    obtain ⟨before, item, after, rfl, -, here⟩ := mapM_eq_error_iff.mp failed
    exact ⟨item, by simp, fault, here⟩
  · rintro ⟨item, member, fault, here⟩
    rcases ok_or_error (items.mapM action) with ⟨results, yields⟩ | failed
    · obtain ⟨result, yields⟩ := exists_of_mapM_eq_ok yields member
      rw [here] at yields
      cases yields
    · exact failed

end ExtensionCatalog.Outcome
