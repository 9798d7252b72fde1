/-
**Lines of a text.**

A line ends at a line feed, with one carriage return before it if there is one. A last line needs
no end, and a text that ends a line has no further one.

* `lines_append_newline`: a terminated first line is the first line;
* `lines_append_cons`: text without a line feed belongs to the line behind it;
* `lines_append_newline_append`: the lines of a text come behind those that were ended before it.
-/

namespace ExtensionCatalog.Text

/-- The lines of a text, without their ends. -/
def lines : List Char → List (List Char)
  | [] => []
  | '\n' :: rest => [] :: lines rest
  | '\r' :: '\n' :: rest => [] :: lines rest
  | c :: rest =>
    match lines rest with
    | [] => [[c]]
    | line :: more => (c :: line) :: more

@[simp] theorem lines_newline (rest : List Char) : lines ('\n' :: rest) = [] :: lines rest := rfl

/-- A terminated first line without carriage return at its end is the first line. -/
theorem lines_append_newline {line : List Char} (rest : List Char) (single : '\n' ∉ line)
    (ending : line.getLast? ≠ some '\r') :
    lines (line ++ '\n' :: rest) = line :: lines rest := by
  induction line with
  | nil => rfl
  | cons c more hypothesis =>
    have later : '\n' ∉ more := fun member => single (by simp [member])
    have different : c ≠ '\n' := fun equal => single (by simp [equal])
    cases more with
    | nil =>
      have plain : c ≠ '\r' := fun equal => ending (by simp [equal])
      rw [List.cons_append, List.nil_append, lines]
      · simp
      · exact different
      · intro tail equal
        exact absurd equal plain
    | cons second tail =>
      have hypothesis := hypothesis later (by simpa using ending)
      have second_ne : second ≠ '\n' := fun equal => later (by simp [equal])
      rw [List.cons_append, lines]
      · rw [hypothesis]
      · exact different
      · intro tail' _ equal
        simp at equal
        exact second_ne equal.1

/-- A character that is not part of an end of a line belongs to the line behind it. -/
theorem lines_cons {c : Char} {rest : List Char} (single : c ≠ '\n')
    (apart : c = '\r' → rest.head? ≠ some '\n') :
    lines (c :: rest) = match lines rest with
      | [] => [[c]]
      | line :: more => (c :: line) :: more := by
  rw [lines]
  · exact single
  · rintro more carriage rfl
    exact apart carriage rfl

theorem lines_ne_nil {text : List Char} (something : text ≠ []) : lines text ≠ [] := by
  fun_cases lines text <;> simp_all

/-- A character that is part of no end of a line begins the first line. -/
theorem exists_lines_cons {c : Char} (single : c ≠ '\n') (apart : c ≠ '\r') (rest : List Char) :
    ∃ line more, lines (c :: rest) = (c :: line) :: more := by
  rw [lines_cons single fun carriage => absurd carriage apart]
  cases lines rest with
  | nil => exact ⟨[], [], rfl⟩
  | cons line more => exact ⟨line, more, rfl⟩

/-- Text without a line feed belongs to the line behind it. -/
theorem lines_append_cons {text rest line : List Char} {c : Char} {more : List (List Char)}
    (single : '\n' ∉ text) (visible : c ≠ '\n') (split : lines (c :: rest) = line :: more) :
    lines (text ++ c :: rest) = (text ++ line) :: more := by
  induction text with
  | nil => exact split
  | cons first text hypothesis =>
    obtain ⟨here, later⟩ := List.ne_and_not_mem_of_not_mem_cons single
    have apart : (text ++ c :: rest).head? ≠ some '\n' := by
      cases text with
      | nil => simpa using visible
      | cons second _ => simpa using (List.ne_and_not_mem_of_not_mem_cons later).1.symm
    rw [List.cons_append, lines_cons here.symm fun _ => apart, hypothesis later, List.cons_append]

/-- The lines of a text come behind those that were ended before it. -/
theorem lines_append_newline_append (text rest : List Char) :
    lines (text ++ '\n' :: rest) = lines (text ++ ['\n']) ++ lines rest := by
  induction text with
  | nil => rfl
  | cons c text hypothesis =>
    by_cases feed : c = '\n'
    · subst feed
      simp only [List.cons_append, lines_newline, hypothesis]
    · by_cases ending : c = '\r' ∧ (text ++ ['\n']).head? = some '\n'
      · obtain ⟨rfl, first⟩ := ending
        cases text with
        | nil => rfl
        | cons second text =>
          obtain rfl : second = '\n' := by simpa using first
          simpa [lines] using hypothesis
      · have apart : c = '\r' → (text ++ ['\n']).head? ≠ some '\n' :=
          fun carriage first => ending ⟨carriage, first⟩
        have apart' : c = '\r' → (text ++ '\n' :: rest).head? ≠ some '\n' := by
          cases text <;> simpa using apart
        have something : text ++ ['\n'] ≠ [] := by simp
        obtain ⟨line, more, split⟩ := List.exists_cons_of_ne_nil (lines_ne_nil something)
        rw [List.cons_append, List.cons_append, lines_cons feed apart, lines_cons feed apart',
          hypothesis, split]
        rfl

end ExtensionCatalog.Text
