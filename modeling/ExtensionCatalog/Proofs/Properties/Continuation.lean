/-
**A line may be cut anywhere.**

A backslash at the end of a line joins the next line to it, without the white space in front of
that. Whether a joined line goes on depends on its last part alone, since what is left of a part
that goes on ends in an even number of backslashes. So reading a text line by line needs to know no
more of the lines before than whether the last of them goes on.

* `continues_append_trimStart`: what is joined to a line decides whether the line goes on;
* `logicalLines_append_of_closed`: **logical lines that are complete stay as they are**;
* `logicalLines_cut`: a line in two parts is the line in one part;
* `parse_cut`: **cutting a line changes nothing of what is read**, be it pairs or an error.
-/

import ExtensionCatalog.Proofs.Properties.Reading

namespace ExtensionCatalog.Properties

open Text

/-! ### Whether a line goes on -/

/-- One more backslash changes whether a line goes on. -/
theorem continues_concat_backslash (line : List Char) :
    continues (line ++ ['\\']) = !continues line := by
  rw [continues, continues, List.reverse_concat, List.takeWhile_cons_of_pos (by rfl),
    List.length_cons]
  by_cases odd : (line.reverse.takeWhile (· == '\\')).length % 2 = 1
  · have even : ((line.reverse.takeWhile (· == '\\')).length + 1) % 2 ≠ 1 := by omega
    simp [odd, even]
  · have even : ((line.reverse.takeWhile (· == '\\')).length + 1) % 2 = 1 := by omega
    simp [odd, even]

/-- A line that ends in another character does not go on. -/
theorem continues_concat_of_ne (line : List Char) {c : Char} (different : c ≠ '\\') :
    continues (line ++ [c]) = false := by
  simp [continues, different]

/-- Without the backslash at its end, a line that goes on does not. -/
theorem continues_dropLast {line : List Char} (goesOn : continues line = true) :
    continues line.dropLast = false := by
  rcases List.eq_nil_or_concat line with rfl | ⟨start, c, rfl⟩
  · rfl
  · rw [List.concat_eq_append] at goesOn ⊢
    rw [List.dropLast_concat]
    by_cases backslash : c = '\\'
    · subst backslash
      rw [continues_concat_backslash] at goesOn
      simpa using goesOn
    · rw [continues_concat_of_ne start backslash] at goesOn
      cases goesOn

/-- White space at the start of a line does not matter for whether it goes on. -/
theorem continues_trimStart (line : List Char) : continues (trimStart line) = continues line := by
  induction line with
  | nil => rfl
  | cons c rest hypothesis =>
    by_cases blank : isBlank c
    · have different : c ≠ '\\' := by
        rintro rfl
        exact absurd blank (by decide)
      have closed : continues [c] = false := continues_concat_of_ne [] different
      rw [trimStart, List.dropWhile_cons_of_pos blank, ← trimStart, hypothesis,
        ← List.singleton_append, continues_append closed]
    · rw [trimStart_of_not_blank (by simpa using blank)]

/-- What is joined to a line decides whether the line goes on. -/
theorem continues_append_trimStart {start : List Char} (closed : continues start = false)
    (line : List Char) : continues (start ++ trimStart line) = continues line := by
  rw [continues_append closed, continues_trimStart]

/-! ### Complete logical lines -/

/-- Whether the last of some lines goes on in the next one; `inside` tells whether the first of them
goes on with one before it. A line that says nothing by itself does not go on. -/
def leavesOpen (inside : Bool) : List (List Char) → Bool
  | [] => inside
  | line :: rest => leavesOpen (continues line && (inside || !isSilent (trimStart line))) rest

/-- **Logical lines that are complete stay as they are**, whatever lines follow. The induction
carries that the part read so far, if there is one, has lost the backslash at its end. -/
theorem logicalLines_append_of_closed (pending : Option (List Char)) {before : List (List Char)}
    (closed : ∀ start ∈ pending, continues start = false)
    (complete : leavesOpen pending.isSome before = false) (after : List (List Char)) :
    logicalLines pending (before ++ after) =
      logicalLines pending before ++ logicalLines none after := by
  fun_induction logicalLines pending before with
  | case1 => rfl
  | case2 pending => cases complete
  | case3 line rest start silent hypothesis =>
    rw [List.cons_append, logicalLines, if_pos silent]
    apply hypothesis closed
    simpa [leavesOpen, silent, start] using complete
  | case4 line rest start spoken goesOn hypothesis =>
    have same : continues line = true := (continues_trimStart line).symm.trans goesOn
    rw [List.cons_append, logicalLines, if_neg spoken, if_pos goesOn]
    apply hypothesis
    · simpa using continues_dropLast goesOn
    · simpa [leavesOpen, spoken, start, same] using complete
  | case5 line rest start spoken stops hypothesis =>
    have same : continues line = false := by
      rw [← continues_trimStart]
      simpa using stops
    rw [List.cons_append, logicalLines, if_neg spoken, if_neg stops, hypothesis closed,
      List.cons_append]
    simpa [leavesOpen, same] using complete
  | case6 pending line rest longer goesOn hypothesis =>
    have same : continues longer = continues line :=
      continues_append_trimStart (closed pending rfl) line
    rw [List.cons_append, logicalLines, if_pos goesOn]
    apply hypothesis
    · simpa using continues_dropLast goesOn
    · simpa [leavesOpen, ← same, goesOn] using complete
  | case7 pending line rest longer stops hypothesis =>
    have same : continues longer = continues line :=
      continues_append_trimStart (closed pending rfl) line
    rw [List.cons_append, logicalLines, if_neg stops, hypothesis (by simp), List.cons_append]
    simpa [leavesOpen, ← same, stops] using complete

/-- A text of complete logical lines: each of its lines is ended, and the last one does not go
on. -/
def IsComplete (text : List Char) : Prop :=
  (text = [] ∨ text.getLast? = some '\n') ∧ leavesOpen false (lines text) = false

theorem IsComplete.logicalLines_append {text : List Char} (complete : IsComplete text)
    (rest : List Char) :
    logicalLines none (lines (text ++ rest)) =
      logicalLines none (lines text) ++ logicalLines none (lines rest) := by
  obtain ⟨ended, closed⟩ := complete
  have split : lines (text ++ rest) = lines text ++ lines rest := by
    rcases ended with rfl | last
    · rfl
    · obtain ⟨body, rfl⟩ := List.getLast?_eq_some_iff.mp last
      rw [List.append_assoc, List.singleton_append, lines_append_newline_append]
  rw [split, logicalLines_append_of_closed none (by simp) closed]

/-! ### Cut lines -/

theorem isSilent_append {text : List Char} (spoken : isSilent text = false) (rest : List Char) :
    isSilent (text ++ rest) = false := by
  cases text with
  | nil => cases spoken
  | cons c text => exact spoken

theorem trimStart_append_of_spoken {part : List Char} (spoken : isSilent (trimStart part) = false)
    (rest : List Char) : trimStart (part ++ rest) = trimStart part ++ rest := by
  apply trimStart_append
  intro blank
  rw [blank] at spoken
  cases spoken

/-- The logical lines from one on of which a part is read: it is complete, or the next line goes on
with it. -/
def resume (start : List Char) (rest : List (List Char)) : List (List Char) :=
  if continues start then logicalLines (some start.dropLast) rest
  else start :: logicalLines none rest

theorem logicalLines_some (pending line : List Char) (rest : List (List Char)) :
    logicalLines (some pending) (line :: rest) = resume (pending ++ trimStart line) rest := rfl

theorem logicalLines_of_spoken {line : List Char} (spoken : isSilent (trimStart line) = false)
    (rest : List (List Char)) :
    logicalLines none (line :: rest) = resume (trimStart line) rest := by
  have speaks : ¬ isSilent (trimStart line) = true := by
    rw [spoken]
    exact Bool.false_ne_true
  rw [logicalLines, if_neg speaks]
  rfl

/-- A part that goes on is joined to the next line. -/
theorem resume_backslash {start : List Char} (closed : continues start = false) (line : List Char)
    (rest : List (List Char)) :
    resume (start ++ ['\\']) (line :: rest) = resume (start ++ trimStart line) rest := by
  have goesOn : continues (start ++ ['\\']) = true := by
    rw [continues_concat_backslash, closed]
    rfl
  rw [resume, if_pos goesOn, List.dropLast_concat, logicalLines_some]

/-- A line in two parts is the line in one part. -/
theorem logicalLines_cut {part line behind : List Char}
    (spoken : isSilent (trimStart part) = false) (closed : continues part = false)
    (trimmed : trimStart line = behind) (more : List (List Char)) :
    logicalLines none ((part ++ ['\\']) :: line :: more) =
      logicalLines none ((part ++ behind) :: more) := by
  have start : ∀ rest, trimStart (part ++ rest) = trimStart part ++ rest :=
    trimStart_append_of_spoken spoken
  have speaks : ∀ rest, isSilent (trimStart (part ++ rest)) = false := by
    intro rest
    rw [start, isSilent_append spoken]
  have still : continues (trimStart part) = false := by rw [continues_trimStart, closed]
  calc logicalLines none ((part ++ ['\\']) :: line :: more)
      = resume (trimStart part ++ ['\\']) (line :: more) := by
        rw [logicalLines_of_spoken (speaks _), start]
    _ = resume (trimStart part ++ behind) more := by rw [resume_backslash still, trimmed]
    _ = logicalLines none ((part ++ behind) :: more) := by
        rw [logicalLines_of_spoken (speaks _), start]

/-- A text whose first line is cut has the logical lines of the text without the cut. -/
theorem logicalLines_lines_cut {part blanks behind : List Char} {c : Char}
    (single : '\n' ∉ part) (spoken : isSilent (trimStart part) = false)
    (closed : continues part = false) (blank : ∀ c ∈ blanks, isBlank c = true ∧ c ≠ '\n')
    (visible : isBlank c = false) :
    logicalLines none (lines (part ++ '\\' :: '\n' :: (blanks ++ c :: behind))) =
      logicalLines none (lines (part ++ c :: behind)) := by
  have ordinary : c ≠ '\n' ∧ c ≠ '\r' := by
    constructor <;> rintro rfl <;> cases visible
  obtain ⟨line, more, split⟩ := exists_lines_cons ordinary.1 ordinary.2 behind
  have second : lines (blanks ++ c :: behind) = (blanks ++ c :: line) :: more :=
    lines_append_cons (fun member => (blank _ member).2 rfl) ordinary.1 split
  have first : lines (part ++ '\\' :: '\n' :: (blanks ++ c :: behind)) =
      (part ++ ['\\']) :: (blanks ++ c :: line) :: more := by
    rw [← second, ← lines_append_newline _ (by simp [single]) (by simp)]
    simp
  have trimmed : trimStart (blanks ++ c :: line) = c :: line := by
    rw [trimStart_blanks_append fun c member => (blank c member).1, trimStart_of_not_blank visible]
  rw [first, logicalLines_cut spoken closed trimmed, lines_append_cons single ordinary.1 split]

/-- **Cutting a line changes nothing of what is read**, be it pairs or an error. The text before the
line is complete; the line says something, is cut behind an even number of backslashes, and goes on
with a visible character behind white space. Behind that stands any text, also further parts of the
line. -/
theorem parse_cut {before part blanks behind : String} (complete : IsComplete before.toList)
    (single : '\n' ∉ part.toList) (spoken : isSilent (trimStart part.toList) = false)
    (closed : continues part.toList = false)
    (blank : ∀ c ∈ blanks.toList, isBlank c = true ∧ c ≠ '\n')
    (visible : ∃ c ∈ behind.toList.head?, isBlank c = false) :
    parse (before ++ part ++ "\\\n" ++ blanks ++ behind) = parse (before ++ part ++ behind) := by
  obtain ⟨c, first, visible⟩ := visible
  obtain ⟨rest, starts⟩ := List.head?_eq_some_iff.mp first
  have cut : (before ++ part ++ "\\\n" ++ blanks ++ behind).toList =
      before.toList ++ (part.toList ++ '\\' :: '\n' :: (blanks.toList ++ c :: rest)) := by
    simp [starts]
  have whole : (before ++ part ++ behind).toList = before.toList ++ (part.toList ++ c :: rest) := by
    simp [starts]
  have same : readPairs (before ++ part ++ "\\\n" ++ blanks ++ behind) =
      readPairs (before ++ part ++ behind) := by
    rw [readPairs, readPairs, cut, whole, complete.logicalLines_append,
      complete.logicalLines_append, logicalLines_lines_cut single spoken closed blank visible]
  rw [parse, parse, same]

/-- A remark whose backslash means nothing, and a line that is cut in front of its value and once
more in the value. -/
theorem parse_cut_value :
    IsComplete "# remark\\\n".toList ∧
    parse ("# remark\\\n" ++ " k\\\\ = " ++ "\\\n" ++ " \t" ++ "v\\\n w\nx") =
      parse "# remark\\\n k\\\\ = v\\\n w\nx" ∧
    (parse "# remark\\\n k\\\\ = v\\\n w\nx").toOption =
      some (.ofList [("k\\", "vw"), ("x", "")]) := by
  have complete : IsComplete "# remark\\\n".toList := by
    constructor
    · exact .inr (by decide)
    · decide
  have blank : ∀ c ∈ " \t".toList, isBlank c = true ∧ c ≠ '\n' := by simp [isBlank]
  refine ⟨complete, ?_, by decide +kernel⟩
  exact parse_cut complete (by decide) (by decide) (by decide) blank ⟨'v', by decide, by decide⟩

end ExtensionCatalog.Properties
