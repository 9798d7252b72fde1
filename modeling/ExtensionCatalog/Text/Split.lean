/-
**Splitting a text at a separator, and joining the parts again.**

* `join_split`: joining undoes splitting;
* `not_mem_of_mem_split`, `subset_of_mem_split`: no part holds the separator, or a character that
  the text does not hold;
* `split_join`: splitting undoes joining of one or more parts that do not hold the separator;
* `split_append_cons`: splitting goes on behind a separator as if the text began there;
* `prefix_join`, `suffix_join`: how joined parts begin and end;
* `intercalate_splitText`, `splitText_intercalate`: the same for strings.
-/

namespace ExtensionCatalog.Text

/-- The parts between the separators of a text, one more than there are separators. -/
def split (separator : Char) : List Char → List (List Char)
  | [] => [[]]
  | c :: rest =>
    if c = separator then [] :: split separator rest
    else
      match split separator rest with
      | [] => [[c]]
      | first :: more => (c :: first) :: more

/-- The parts with a separator between neighbours. -/
def join (separator : Char) : List (List Char) → List Char
  | [] => []
  | [part] => part
  | part :: more => part ++ separator :: join separator more

/-- The parts of a string between separators. -/
def splitText (separator : Char) (text : String) : List String :=
  (split separator text.toList).map String.ofList

theorem split_ne_nil (separator : Char) (text : List Char) : split separator text ≠ [] := by
  cases text with
  | nil => simp [split]
  | cons c rest => grind [split]

/-- Joining undoes splitting. -/
theorem join_split (separator : Char) (text : List Char) :
    join separator (split separator text) = text := by
  induction text with
  | nil => rfl
  | cons c rest hypothesis =>
    rw [split]
    split
    · rename_i equal
      cases parts : split separator rest with
      | nil => exact absurd parts (split_ne_nil _ _)
      | cons first more =>
        rw [parts] at hypothesis
        simp [join, hypothesis, equal]
    · cases parts : split separator rest with
      | nil => exact absurd parts (split_ne_nil _ _)
      | cons first more =>
        rw [parts] at hypothesis
        cases more with
        | nil => simpa [join] using hypothesis
        | cons second others => simpa [join] using hypothesis

/-- No part holds the separator. -/
theorem not_mem_of_mem_split {separator : Char} {text part : List Char}
    (member : part ∈ split separator text) : separator ∉ part := by
  induction text generalizing part with
  | nil => simp_all [split]
  | cons c rest hypothesis =>
    rw [split] at member
    split at member
    · rcases List.mem_cons.mp member with rfl | later
      · simp
      · exact hypothesis later
    · rename_i different
      cases parts : split separator rest with
      | nil => exact absurd parts (split_ne_nil _ _)
      | cons first more =>
        rw [parts] at member hypothesis
        rcases List.mem_cons.mp member with rfl | later
        · have := @hypothesis first (by simp)
          grind
        · exact hypothesis (by simp [later])

/-- A part has no characters but those of the text. -/
theorem subset_of_mem_split {separator : Char} {text part : List Char}
    (member : part ∈ split separator text) : part ⊆ text := by
  induction text generalizing part with
  | nil =>
    rw [split, List.mem_singleton] at member
    rw [member]
    exact List.nil_subset []
  | cons c rest hypothesis =>
    rw [split] at member
    split at member
    · rcases List.mem_cons.mp member with rfl | later
      · exact List.nil_subset _
      · exact List.Subset.trans (hypothesis later) (List.subset_cons_self c rest)
    · cases parts : split separator rest with
      | nil => exact absurd parts (split_ne_nil _ _)
      | cons first more =>
        rw [parts] at member hypothesis
        rcases List.mem_cons.mp member with rfl | later
        · exact List.cons_subset_cons c (hypothesis List.mem_cons_self)
        · exact List.Subset.trans (hypothesis (List.mem_cons_of_mem first later))
            (List.subset_cons_self c rest)

theorem split_of_not_mem {separator : Char} {part : List Char} (free : separator ∉ part) :
    split separator part = [part] := by
  induction part with
  | nil => rfl
  | cons c rest hypothesis =>
    have later := hypothesis fun member => free (by simp [member])
    have different : c ≠ separator := fun equal => free (by simp [equal])
    simp [split, different, later]

theorem split_append_separator {separator : Char} {part : List Char} (free : separator ∉ part)
    (rest : List Char) :
    split separator (part ++ separator :: rest) = part :: split separator rest := by
  induction part with
  | nil => simp [split]
  | cons c more hypothesis =>
    have later := hypothesis fun member => free (by simp [member])
    have different : c ≠ separator := fun equal => free (by simp [equal])
    simp [split, different, later]

/-- Splitting undoes joining of one or more parts that do not hold the separator. -/
theorem split_join {separator : Char} {parts : List (List Char)} (some : parts ≠ [])
    (free : ∀ part ∈ parts, separator ∉ part) : split separator (join separator parts) = parts := by
  induction parts with
  | nil => exact absurd rfl some
  | cons part more hypothesis =>
    cases more with
    | nil => exact split_of_not_mem (free part (by simp))
    | cons next others =>
      rw [join, split_append_separator (free part (by simp)),
        hypothesis (by simp) fun other member => free other (by simp [member])]
      simp

/-- Splitting goes on behind a separator as if the text began there. -/
theorem split_append_cons (separator : Char) (first rest : List Char) :
    split separator (first ++ separator :: rest) =
      split separator first ++ split separator rest := by
  induction first with
  | nil => simp [split]
  | cons c more hypothesis =>
    rw [List.cons_append, split, split, hypothesis]
    split
    · rfl
    · cases parts : split separator more with
      | nil => exact absurd parts (split_ne_nil _ _)
      | cons part others => rfl

theorem join_eq_intercalate (separator : Char) (parts : List (List Char)) :
    join separator parts = List.intercalate [separator] parts := by
  induction parts with
  | nil => rfl
  | cons part more hypothesis =>
    cases more with
    | nil => simp [join]
    | cons next others =>
      rw [join, hypothesis, List.intercalate_cons_cons]
      · simp
      · exact List.cons_ne_nil next others

/-- Joined parts begin with the first one. -/
theorem prefix_join (separator : Char) (first : List Char) (more : List (List Char)) :
    first <+: join separator (first :: more) := by
  cases more with
  | nil => exact List.prefix_refl first
  | cons next others => exact List.prefix_append first _

/-- Joined parts end with the last one. -/
theorem suffix_join (separator : Char) (parts : List (List Char)) (last : List Char) :
    last <:+ join separator (parts ++ [last]) := by
  induction parts with
  | nil => exact List.suffix_refl last
  | cons part more hypothesis =>
    cases behind : more ++ [last] with
    | nil => simp at behind
    | cons next others =>
      rw [List.cons_append, behind, join, ← behind]
      · exact hypothesis.trans ((List.suffix_cons separator _).trans (List.suffix_append part _))
      · exact List.cons_ne_nil next others

/-! ### Strings -/

/-- A text that begins with a string begins with the first character of the string. -/
theorem head?_eq_of_prefix {text : List Char} {part : String} (some : part ≠ "")
    (begins : part.toList <+: text) : text.head? = part.toList.head? := by
  obtain ⟨c, more, characters⟩ := List.exists_cons_of_ne_nil (mt String.toList_eq_nil_iff.mp some)
  obtain ⟨rest, rfl⟩ := begins
  rw [characters]
  rfl

/-- A text that ends with a string ends with the last character of the string. -/
theorem getLast?_eq_of_suffix {text : List Char} {part : String} (some : part ≠ "")
    (ends : part.toList <:+ text) : text.getLast? = part.toList.getLast? := by
  obtain ⟨c, last⟩ := Option.isSome_iff_exists.mp
    (List.getLast?_isSome.mpr (mt String.toList_eq_nil_iff.mp some))
  obtain ⟨front, rfl⟩ := ends
  rw [List.getLast?_append, last, Option.some_or]

theorem splitText_ne_nil (separator : Char) (text : String) : splitText separator text ≠ [] := by
  simpa [splitText] using split_ne_nil separator text.toList

/-- No part of a string holds the separator. -/
theorem not_mem_of_mem_splitText {separator : Char} {text part : String}
    (member : part ∈ splitText separator text) : separator ∉ part.toList := by
  obtain ⟨characters, inside, rfl⟩ := List.mem_map.mp member
  rw [String.toList_ofList]
  exact not_mem_of_mem_split inside

/-- A part of a string has no characters but those of the string. -/
theorem subset_of_mem_splitText {separator : Char} {text part : String}
    (member : part ∈ splitText separator text) : part.toList ⊆ text.toList := by
  obtain ⟨characters, inside, rfl⟩ := List.mem_map.mp member
  rw [String.toList_ofList]
  exact subset_of_mem_split inside

theorem splitText_append_cons (separator : Char) (first rest : List Char) :
    splitText separator (String.ofList (first ++ separator :: rest)) =
      splitText separator (String.ofList first) ++ splitText separator (String.ofList rest) := by
  simp only [splitText, String.toList_ofList, split_append_cons, List.map_append]

theorem splitText_of_not_mem {separator : Char} {part : String}
    (free : separator ∉ part.toList) : splitText separator part = [part] := by
  rw [splitText, split_of_not_mem free, List.map_singleton, String.ofList_toList]

/-- Splitting undoes putting separators between parts that hold none. -/
theorem splitText_intercalate {separator : Char} {parts : List String} (some : parts ≠ [])
    (free : ∀ part ∈ parts, separator ∉ part.toList) :
    splitText separator (String.intercalate (String.singleton separator) parts) = parts := by
  have joined : (String.intercalate (String.singleton separator) parts).toList =
      join separator (parts.map String.toList) := by
    rw [String.toList_intercalate, join_eq_intercalate, String.toList_singleton]
  rw [splitText, joined, split_join (by simpa using some) (by simpa using free), List.map_map]
  simp [Function.comp_def]

/-- Putting separators between the parts of a string undoes splitting it. -/
theorem intercalate_splitText (separator : Char) (text : String) :
    String.intercalate (String.singleton separator) (splitText separator text) = text := by
  rw [← String.toList_inj, String.toList_intercalate, String.toList_singleton, splitText,
    List.map_map]
  simp only [Function.comp_def, String.toList_ofList, List.map_id']
  rw [← join_eq_intercalate, join_split]

end ExtensionCatalog.Text
