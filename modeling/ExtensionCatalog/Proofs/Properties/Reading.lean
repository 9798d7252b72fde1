/-
**Reading a written document.**

A written pair is one line of visible characters that neither says nothing nor goes on in the next
line, and its first unescaped separator is the one that was written. So the three steps of reading
undo the three steps of writing.

* `lines_render`, `logicalLines_written`: the lines of a document are those that were written;
* `splitPair_pairLine`: **a line is split where it was joined**;
* `parse_render`: **a written document is read as its pairs**, a later one replacing an earlier one
  of the same key;
* `parse_render_perm`: **a map is read back from its pairs, written in any order**.
-/

import ExtensionCatalog.Proofs.Properties.Escaping

namespace ExtensionCatalog.Properties

open Text

/-- The line of a pair, without its end. -/
def pairLine (pair : String × String) : List Char :=
  escapeKey pair.1.toList ++ '=' :: escapeValue pair.2.toList

theorem renderPair_eq (pair : String × String) : renderPair pair = pairLine pair ++ ['\n'] := rfl

/-! ### Characters of a line -/

theorem isBlank_of_visible {c : Char} (visible : isVisible c = true) (different : c ≠ ' ') :
    isBlank c = false := by
  have low : ' '.toNat ≤ c.toNat := by simp_all [isVisible, Char.le_def, UInt32.le_iff_toNat_le]
  have high : c.toNat ≤ '~'.toNat := by simp_all [isVisible, Char.le_def, UInt32.le_iff_toNat_le]
  have apart : c.toNat ≠ ' '.toNat := fun same => different (Char.toNat_inj.mp same)
  simp only [Char.reduceToNat] at low high apart
  simp only [isBlank, Bool.or_eq_false_iff, Bool.and_eq_false_iff, decide_eq_false_iff_not,
    beq_eq_false_iff_ne]
  omega

theorem visible_escapeKey {text : List Char} {c : Char} (member : c ∈ escapeKey text) :
    isVisible c = true := by
  obtain ⟨original, -, written⟩ := List.mem_flatMap.mp member
  exact visible_escapeChar written

theorem visible_escapeValue {text : List Char} {c : Char} (member : c ∈ escapeValue text) :
    isVisible c = true := by
  cases text with
  | nil => simp [escapeValue] at member
  | cons first rest =>
    rcases List.mem_append.mp member with here | later
    · exact visible_escapeChar here
    · obtain ⟨original, -, written⟩ := List.mem_flatMap.mp later
      exact visible_escapeChar written

/-- A line has visible characters only. -/
theorem visible_pairLine {pair : String × String} {c : Char} (member : c ∈ pairLine pair) :
    isVisible c = true := by
  rcases List.mem_append.mp member with key | later
  · exact visible_escapeKey key
  · rcases List.mem_cons.mp later with rfl | value
    · decide
    · exact visible_escapeValue value

/-- What is written for a guarded character begins with no blank and with no remark sign. -/
theorem exists_head_escapeChar (c : Char) :
    ∃ first rest, escapeChar true c = first :: rest ∧
      isBlank first = false ∧ first ≠ '#' ∧ first ≠ '!' := by
  generalize spelled : escapeChar true c = spelling
  cases spelled ▸ spelling_escapeChar true c with
  | plain visible ordinary free =>
    have apart : c ≠ '#' ∧ c ≠ '!' := by
      constructor <;> rintro rfl <;> exact ordinary (by decide)
    exact ⟨c, [], rfl, isBlank_of_visible visible (free rfl), apart⟩
  | mark sign => exact ⟨'\\', [sign], rfl, by decide⟩
  | units =>
    obtain ⟨unit, more, units⟩ := List.exists_cons_of_ne_nil (encodeChar_ne_nil c)
    rw [units, List.flatMap_cons, escapeUnit]
    exact ⟨'\\', _, rfl, by decide⟩

/-- A line begins with no blank and with no remark sign. -/
theorem exists_head_pairLine (pair : String × String) :
    ∃ first rest, pairLine pair = first :: rest ∧
      isBlank first = false ∧ first ≠ '#' ∧ first ≠ '!' := by
  unfold pairLine
  cases pair.1.toList with
  | nil => exact ⟨'=', _, rfl, by decide⟩
  | cons c key =>
    obtain ⟨first, rest, written, facts⟩ := exists_head_escapeChar c
    rw [escapeKey, List.flatMap_cons, written]
    exact ⟨first, _, rfl, facts⟩

theorem trimStart_pairLine (pair : String × String) :
    trimStart (pairLine pair) = pairLine pair := by
  obtain ⟨first, rest, written, notBlank, -⟩ := exists_head_pairLine pair
  rw [written, trimStart_of_not_blank notBlank]

theorem isSilent_pairLine (pair : String × String) : isSilent (pairLine pair) = false := by
  obtain ⟨first, rest, written, -, apart⟩ := exists_head_pairLine pair
  rw [written, isSilent]
  simp [apart]

theorem trimStart_escapeValue (text : List Char) :
    trimStart (escapeValue text) = escapeValue text := by
  cases text with
  | nil => rfl
  | cons c rest =>
    obtain ⟨first, more, written, notBlank, -⟩ := exists_head_escapeChar c
    rw [escapeValue, written, List.cons_append, trimStart_of_not_blank notBlank]

/-! ### Where a line ends -/

/-- Text that does not go on in the next line does not change whether text behind it does. -/
theorem continues_append {closed : List Char} (ends : continues closed = false)
    (text : List Char) : continues (closed ++ text) = continues text := by
  unfold continues at ends ⊢
  rw [List.reverse_append, List.takeWhile_append]
  split
  · next whole =>
    have even : (closed.reverse.takeWhile (· == '\\')).length % 2 = 0 := by
      simpa using ends
    rw [whole, List.length_append, Nat.add_mod, even]
    simp
  · rfl

theorem continues_flatMap {written : Char → List Char}
    (each : ∀ c, continues (written c) = false) (text : List Char) :
    continues (text.flatMap written) = false := by
  induction text with
  | nil => rfl
  | cons c text hypothesis => rw [List.flatMap_cons, continues_append (each c), hypothesis]

theorem continues_escapeUnits (units : List UInt16) :
    continues (units.flatMap escapeUnit) = false := by
  induction units with
  | nil => rfl
  | cons unit units hypothesis =>
    have last : continues (escapeUnit unit) = false := by
      have member : Numeral.digitChar (unit.toNat % 16) ∈ Numeral.padded 16 4 unit.toNat := by
        simp [Numeral.padded]
      have digit : Numeral.digitChar (unit.toNat % 16) ∉ signs := (digit_escapeUnit member).2.1
      have different : Numeral.digitChar (unit.toNat % 16) ≠ '\\' := fun equal =>
        digit (by simp [equal, signs])
      simp [continues, escapeUnit, Numeral.padded, different]
    rw [List.flatMap_cons, continues_append last, hypothesis]

/-- No written character leaves a backslash that would escape what comes after it. -/
theorem continues_escapeChar (guarded : Bool) (c : Char) :
    continues (escapeChar guarded c) = false := by
  generalize spelled : escapeChar guarded c = spelling
  cases spelled ▸ spelling_escapeChar guarded c with
  | plain visible ordinary =>
    have different : c ≠ '\\' := fun equal => ordinary (by simp [equal, signs])
    simp [continues, different]
  | mark sign =>
    by_cases backslash : sign = '\\'
    · subst backslash
      decide
    · simp [continues, backslash]
  | units => exact continues_escapeUnits _

theorem continues_escapeValue (text : List Char) : continues (escapeValue text) = false := by
  cases text with
  | nil => rfl
  | cons c rest =>
    rw [escapeValue, continues_append (continues_escapeChar true c)]
    exact continues_flatMap (continues_escapeChar false) rest

/-- **No line goes on in the next one.** -/
theorem continues_pairLine (pair : String × String) : continues (pairLine pair) = false := by
  have key : continues (escapeKey pair.1.toList) = false :=
    continues_flatMap (continues_escapeChar true) _
  have separator : continues ['='] = false := by decide
  have value := continues_escapeValue pair.2.toList
  rw [pairLine, continues_append key, ← List.singleton_append, continues_append separator, value]

/-! ### Where a line is split -/

/-- Put text in front of the key of a split line. -/
def prependKey (text : List Char) (parts : List Char × List Char) : List Char × List Char :=
  (text ++ parts.1, parts.2)

theorem splitPair_escape (sign : Char) (rest : List Char) :
    splitPair ('\\' :: sign :: rest) = prependKey ['\\', sign] (splitPair rest) := by
  rw [splitPair]
  rfl

theorem splitPair_cons {c : Char} (ordinary : c ∉ signs) (notBlank : isBlank c = false)
    (rest : List Char) : splitPair (c :: rest) = prependKey [c] (splitPair rest) := by
  have apart : c ≠ '\\' ∧ c ≠ '=' ∧ c ≠ ':' := by
    refine ⟨?_, ?_, ?_⟩ <;> rintro rfl <;> exact ordinary (by decide)
  rw [splitPair]
  · simp [apart, notBlank, prependKey]
  · exact fun sign more backslash => absurd backslash apart.1

theorem splitPair_ordinary {text : List Char}
    (ordinary : ∀ c ∈ text, c ∉ signs ∧ isBlank c = false) (rest : List Char) :
    splitPair (text ++ rest) = prependKey text (splitPair rest) := by
  induction text with
  | nil => rfl
  | cons c text hypothesis =>
    obtain ⟨first, others⟩ := List.forall_mem_cons.mp ordinary
    rw [List.cons_append, splitPair_cons first.1 first.2, hypothesis others]
    rfl

theorem splitPair_escapeUnit (unit : UInt16) (rest : List Char) :
    splitPair (escapeUnit unit ++ rest) = prependKey (escapeUnit unit) (splitPair rest) := by
  have ordinary : ∀ c ∈ Numeral.padded 16 4 unit.toNat, c ∉ signs ∧ isBlank c = false :=
    fun c member => (digit_escapeUnit member).2
  have digits := splitPair_ordinary ordinary rest
  rw [escapeUnit, List.append_assoc, List.cons_append, List.singleton_append, splitPair_escape,
    digits]
  rfl

theorem splitPair_escapeUnits (units : List UInt16) (rest : List Char) :
    splitPair (units.flatMap escapeUnit ++ rest) =
      prependKey (units.flatMap escapeUnit) (splitPair rest) := by
  induction units with
  | nil => rfl
  | cons unit units hypothesis =>
    rw [List.flatMap_cons, List.append_assoc, splitPair_escapeUnit, hypothesis]
    simp [prependKey]

/-- A guarded character holds no separator: the key goes on behind it. -/
theorem splitPair_escapeChar (c : Char) (rest : List Char) :
    splitPair (escapeChar true c ++ rest) = prependKey (escapeChar true c) (splitPair rest) := by
  generalize spelled : escapeChar true c = spelling
  cases spelled ▸ spelling_escapeChar true c with
  | plain visible ordinary free =>
    exact splitPair_cons ordinary (isBlank_of_visible visible (free rfl)) rest
  | mark sign => exact splitPair_escape sign rest
  | units => exact splitPair_escapeUnits _ rest

theorem splitPair_escapeKey (text rest : List Char) :
    splitPair (escapeKey text ++ rest) = prependKey (escapeKey text) (splitPair rest) := by
  unfold escapeKey
  induction text with
  | nil => rfl
  | cons c text hypothesis =>
    rw [List.flatMap_cons, List.append_assoc, splitPair_escapeChar, hypothesis]
    simp [prependKey]

/-- **A line is split where it was joined.** -/
theorem splitPair_pairLine (pair : String × String) :
    splitPair (pairLine pair) = (escapeKey pair.1.toList, escapeValue pair.2.toList) := by
  have separator : splitPair ('=' :: escapeValue pair.2.toList) =
      ([], escapeValue pair.2.toList) := by
    rw [splitPair, trimStart_escapeValue]
    · simp
    · exact fun _ _ equal => absurd equal (by decide)
  rw [pairLine, splitPair_escapeKey, separator]
  simp [prependKey]

theorem readPair_pairLine (pair : String × String) : readPair (pairLine pair) = .ok pair := by
  rw [readPair, splitPair_pairLine]
  simp only [unescape_escapeKey, unescape_escapeValue]
  simp [bind, Except.bind, pure, Except.pure]

/-! ### Documents -/

/-- The lines of a document are those that were written. -/
theorem lines_render (pairs : List (String × String)) :
    Text.lines (pairs.flatMap renderPair) = pairs.map pairLine := by
  induction pairs with
  | nil => rfl
  | cons pair pairs hypothesis =>
    have single : '\n' ∉ pairLine pair := fun member =>
      absurd (visible_pairLine member) (by decide)
    have ending : (pairLine pair).getLast? ≠ some '\r' := fun last =>
      absurd (visible_pairLine (List.mem_of_getLast? last)) (by decide)
    rw [List.flatMap_cons, renderPair_eq, List.append_assoc, List.singleton_append,
      lines_append_newline _ single ending, hypothesis, List.map_cons]

/-- Every written line is a logical line of its own. -/
theorem logicalLines_written (pairs : List (String × String)) :
    logicalLines none (pairs.map pairLine) = pairs.map pairLine := by
  induction pairs with
  | nil => rfl
  | cons pair pairs hypothesis =>
    rw [List.map_cons, logicalLines, trimStart_pairLine, isSilent_pairLine, continues_pairLine,
      hypothesis]
    simp

/-- **Reading a written document gives its pairs, in order.** -/
theorem readPairs_render (pairs : List (String × String)) :
    readPairs (render pairs) = .ok pairs := by
  rw [readPairs, render, String.toList_ofList, lines_render, logicalLines_written]
  induction pairs with
  | nil => rfl
  | cons pair pairs hypothesis =>
    rw [List.map_cons, List.mapM_cons, readPair_pairLine, hypothesis]
    rfl

/-- **A written document is read as its pairs**, a later one in place of an earlier one of the same
key. -/
theorem parse_render (pairs : List (String × String)) :
    parse (render pairs) = .ok (.ofList pairs) := by
  rw [parse, readPairs_render]

/-- **A map is read back from its pairs, written in any order.** Keys and values are any texts. -/
theorem parse_render_perm {map : SortedMap String String} {pairs : List (String × String)}
    (order : pairs.Perm map.toList) : parse (render pairs) = .ok map := by
  rw [parse_render, SortedMap.ofList_of_perm order]

/-- A map with an empty key, with blanks, signs and backslashes in keys and values, and with
characters that are written as escapes of one code unit and of two. -/
def awkwardMap : SortedMap String String :=
  .ofList [("", " \\"), (" #=:!", ""), ("\n\\u0041", "\x0b😀 ")]

/-- The pairs in the opposite order, as they are written, and what is read. -/
theorem parse_render_perm_awkward :
    awkwardMap.toList.reverse.Perm awkwardMap.toList ∧
    render awkwardMap.toList.reverse =
      "\\ \\#\\=\\:\\!=\n\\n\\\\u0041=\\u000B\\uD83D\\uDE00 \n=\\ \\\\\n" ∧
    parse (render awkwardMap.toList.reverse) = .ok awkwardMap :=
  have order := List.reverse_perm awkwardMap.toList
  ⟨order, by decide +kernel, parse_render_perm order⟩

end ExtensionCatalog.Properties
