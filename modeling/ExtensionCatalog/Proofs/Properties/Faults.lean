/-
**Which documents are refused.**

A document is refused for an escape of a code unit that is not spelled right, and for a run of
escapes whose code units are no UTF-16. An escape that is spelled right has four hexadecimal digits.
The reader takes any numeral of at most four characters instead, so a plus sign may stand in front
of the digits, and at the end of a key or a value some of them may be missing.

* `IsFaulty`: whether an escaped text has a fault, given how the digits of an escape are read;
* `Passed`: text that the reader has passed, and the code units that it holds back;
* `fails_unescapeAfter_iff`: **undoing escapes fails exactly for a fault**, by one lemma for each
  kind of part that a text can begin with;
* `looseUnit?_eq_strictUnit?`: what is read although it is not spelled right;
* `parse_refuses`: **documents are refused exactly for a fault**, and where no escape is spelled
  laxly, this is a fault in the strict sense.
-/

import ExtensionCatalog.Proofs.Outcome
import ExtensionCatalog.Proofs.Properties.Continuation

namespace ExtensionCatalog.Properties

open Text

/-! ### Faults of a text -/

/-- The code unit that four hexadecimal digits spell. -/
def strictUnit? (digits : List Char) : Option UInt16 :=
  if digits.length = 4 then (Numeral.digits? 16 digits).map Nat.toUInt16 else none

/-- The code unit that a hexadecimal numeral spells, with a plus sign or without it. -/
def looseUnit? (digits : List Char) : Option UInt16 := (Numeral.read? 16 digits).map Nat.toUInt16

/-- Whether a text ends in an escape of a code unit: a backslash that is not escaped itself, `u` and
four characters. -/
def EndsInEscape (text : List Char) : Prop :=
  ∃ start digits, text = start ++ '\\' :: 'u' :: digits ∧ continues start = false ∧
    digits.length = 4

section Faults

variable (unit? : List Char → Option UInt16)

/-- The code units of the escapes that a text begins with, as many as follow one another. -/
inductive Run : List Char → List UInt16 → Prop
  | stop {text : List Char} (other : ¬ ['\\', 'u'] <+: text) : Run text []
  | escape {behind : List Char} {unit : UInt16} {units : List UInt16}
      (spelled : unit? (behind.take 4) = some unit) (more : Run (behind.drop 4) units) :
      Run ('\\' :: 'u' :: behind) (unit :: units)

/-- A fault at a place of a text: an escape that is not spelled right, or the first one of a run of
escapes whose code units are not well formed. -/
inductive FaultAt (before : List Char) : List Char → Prop
  | misspelled {behind : List Char} (refused : unit? (behind.take 4) = none) :
      FaultAt before ('\\' :: 'u' :: behind)
  | unpaired {text : List Char} {units : List UInt16} (first : ¬ EndsInEscape before)
      (run : Run unit? text units) (broken : ¬ Utf16.IsWellFormed units) : FaultAt before text

/-- Whether a text has a fault behind another text, at a place where no backslash is left that
would escape what stands there. -/
def FaultBehind (before text : List Char) : Prop :=
  ∃ more after, text = more ++ after ∧ continues (before ++ more) = false ∧
    FaultAt unit? (before ++ more) after

/-- Whether an escaped text has a fault. -/
def IsFaulty (text : List Char) : Prop :=
  ∃ before after, text = before ++ after ∧ continues before = false ∧ FaultAt unit? before after

end Faults

variable {unit? : List Char → Option UInt16} {before digits rest text : List Char}
  {units : List UInt16} {unit : UInt16} {c : Char}

theorem faultBehind_nil_iff : FaultBehind unit? [] text ↔ IsFaulty unit? text := Iff.rfl

/-- Faults are at escapes. -/
theorem FaultAt.isPrefix (fault : FaultAt unit? before text) : ['\\', 'u'] <+: text := by
  cases fault with
  | misspelled => exact ⟨_, rfl⟩
  | unpaired first run broken =>
    cases run with
    | stop => exact absurd Utf16.isWellFormed_nil broken
    | escape => exact ⟨_, rfl⟩

theorem not_faultBehind_nil : ¬ FaultBehind unit? before [] := by
  rintro ⟨more, after, split, -, fault⟩
  obtain ⟨rfl, rfl⟩ := List.append_eq_nil_iff.mp split.symm
  exact absurd fault.isPrefix (by simp)

/-- A fault is at the first character or further behind. -/
theorem faultBehind_cons : FaultBehind unit? before (c :: rest) ↔
    continues before = false ∧ FaultAt unit? before (c :: rest) ∨
      FaultBehind unit? (before ++ [c]) rest := by
  constructor
  · rintro ⟨_ | ⟨first, more⟩, after, split, free, fault⟩
    · rw [List.nil_append] at split
      subst split
      rw [List.append_nil] at free fault
      exact .inl ⟨free, fault⟩
    · cases split
      rw [List.append_cons] at free fault
      exact .inr ⟨more, after, rfl, free, fault⟩
  · rintro (⟨free, fault⟩ | ⟨more, after, rfl, free, fault⟩)
    · exact ⟨[], c :: rest, rfl, by rwa [List.append_nil], by rwa [List.append_nil]⟩
    · rw [← List.append_cons] at free fault
      exact ⟨c :: more, after, rfl, free, fault⟩

theorem faultBehind_cons_of_not_isPrefix (other : ¬ ['\\', 'u'] <+: c :: rest) :
    FaultBehind unit? before (c :: rest) ↔ FaultBehind unit? (before ++ [c]) rest := by
  rw [faultBehind_cons]
  exact or_iff_right fun here => other here.2.isPrefix

/-- No fault is among characters that are no backslashes. -/
theorem faultBehind_append (plain : '\\' ∉ digits) (rest : List Char) :
    FaultBehind unit? before (digits ++ rest) ↔ FaultBehind unit? (before ++ digits) rest := by
  induction digits generalizing before with
  | nil => simp
  | cons c digits hypothesis =>
    obtain ⟨different, later⟩ := List.ne_and_not_mem_of_not_mem_cons plain
    rw [List.cons_append, faultBehind_cons_of_not_isPrefix (by simp [different]), hypothesis later,
      ← List.append_cons]

/-- No fault is at a character that is escaped. -/
theorem faultBehind_backslash (free : continues before = false) :
    FaultBehind unit? before ('\\' :: c :: rest) ↔
      FaultAt unit? before ('\\' :: c :: rest) ∨ FaultBehind unit? (before ++ ['\\', c]) rest := by
  have escaped : continues (before ++ ['\\']) = true := by
    rw [continues_concat_backslash, free]
    rfl
  rw [faultBehind_cons, faultBehind_cons]
  simp [free, escaped]

theorem run_iff_of_not_isPrefix (other : ¬ ['\\', 'u'] <+: text) :
    Run unit? text units ↔ units = [] := by
  constructor
  · intro run
    cases run with
    | stop => rfl
    | escape => exact absurd ⟨_, rfl⟩ other
  · rintro rfl
    exact .stop other

theorem run_escape_iff (spelled : unit? (rest.take 4) = some unit) :
    Run unit? ('\\' :: 'u' :: rest) units ↔
      ∃ more, Run unit? (rest.drop 4) more ∧ units = unit :: more := by
  constructor
  · intro run
    cases run with
    | stop other => exact absurd ⟨_, rfl⟩ other
    | escape spelled' more =>
      cases spelled.symm.trans spelled'
      exact ⟨_, more, rfl⟩
  · rintro ⟨more, run, rfl⟩
    exact .escape spelled run

/-! ### Text that has been passed -/

theorem not_mem_of_looseUnit? (spelled : looseUnit? digits = some unit) : '\\' ∉ digits := by
  obtain ⟨code, read, -⟩ := Option.map_eq_some_iff.mp spelled
  obtain ⟨hex, -, hexadecimal, written⟩ := Numeral.read?_eq_some_iff.mp read
  have plain : '\\' ∉ hex := fun member =>
    absurd (Numeral.isSome_of_mem_digits? hexadecimal member) (by decide)
  rcases written with rfl | rfl
  · simpa using plain
  · exact plain

theorem continues_escape (text : List Char) (plain : '\\' ∉ digits) :
    continues (text ++ '\\' :: 'u' :: digits) = false := by
  rcases List.eq_nil_or_concat digits with rfl | ⟨start, c, rfl⟩
  · rw [List.append_cons]
    exact continues_concat_of_ne _ (by decide)
  · rw [List.concat_eq_append, ← List.cons_append, ← List.cons_append, ← List.append_assoc]
    apply continues_concat_of_ne
    rintro rfl
    simp at plain

/-- Text that the reader has passed, and the code units of the escapes at its end, which it holds
back until it knows that no further one follows. -/
inductive Passed : List Char → List UInt16 → Prop
  | start : Passed [] []
  | plain {text : List Char} {units : List UInt16} {c : Char} (passed : Passed text units)
      (different : c ≠ '\\') : Passed (text ++ [c]) []
  | mark {text : List Char} {units : List UInt16} {sign : Char} (passed : Passed text units)
      (other : sign ≠ 'u') : Passed (text ++ ['\\', sign]) []
  | escape {text digits : List Char} {units : List UInt16} {unit : UInt16}
      (passed : Passed text units) (four : digits.length = 4)
      (spelled : looseUnit? digits = some unit) :
      Passed (text ++ '\\' :: 'u' :: digits) (units ++ [unit])

namespace Passed

/-- No backslash is left that would escape what comes. -/
theorem closed (passed : Passed text units) : continues text = false := by
  induction passed with
  | start => rfl
  | plain passed different => exact continues_concat_of_ne _ different
  | @mark text units sign passed other hypothesis =>
    rw [List.append_cons]
    by_cases backslash : sign = '\\'
    · rw [backslash, continues_concat_backslash, continues_concat_backslash, hypothesis]
      rfl
    · exact continues_concat_of_ne _ backslash
  | escape passed four spelled => exact continues_escape _ (not_mem_of_looseUnit? spelled)

/-- An escape in a text with a piece behind it begins in the piece, or has more than four characters
behind it. -/
theorem escape_cases {piece start behind : List Char} (passed : Passed text units)
    (nonempty : piece ≠ []) (free : continues start = false)
    (whole : ∀ {inner}, text = start ++ '\\' :: 'u' :: inner →
      4 < inner.length ∨ inner.length = 4 ∧ units ≠ [])
    (split : text ++ piece = start ++ '\\' :: 'u' :: behind) :
    4 < behind.length ∨ ∃ more, piece = more ++ '\\' :: 'u' :: behind := by
  have closed := passed.closed
  rcases List.append_eq_append_iff.mp split with ⟨more, rfl, rest⟩ | ⟨inner, rfl, rest⟩
  · exact .inr ⟨more, rest⟩
  · match inner with
    | [] => exact .inr ⟨[], rest.symm⟩
    | [c] =>
      cases rest
      rw [continues_concat_backslash, free] at closed
      cases closed
    | _ :: _ :: inner =>
      cases rest
      have long := whole rfl
      have longer := List.length_pos_iff.mpr nonempty
      refine .inl ?_
      show 4 < (inner ++ piece).length
      rw [List.length_append]
      omega

/-- An escape in text that has been passed is whole, and at the end its code unit is held back. -/
theorem whole {start behind : List Char} (passed : Passed text units)
    (split : text = start ++ '\\' :: 'u' :: behind) (free : continues start = false) :
    4 < behind.length ∨ behind.length = 4 ∧ units ≠ [] := by
  induction passed generalizing behind with
  | start => simp at split
  | @plain text units c passed different hypothesis =>
    rcases passed.escape_cases (by simp) free hypothesis split with long | ⟨more, piece⟩
    · exact .inl long
    · have short := congrArg List.length piece
      simp at short
      omega
  | @mark text units sign passed other hypothesis =>
    rcases passed.escape_cases (by simp) free hypothesis split with long | ⟨more, piece⟩
    · exact .inl long
    · have short := congrArg List.length piece
      match more with
      | [] =>
        cases piece
        exact absurd rfl other
      | _ :: _ =>
        simp at short
        omega
  | @escape text digits units unit passed four spelled hypothesis =>
    rcases passed.escape_cases (by simp) free hypothesis split with long | ⟨more, piece⟩
    · exact .inl long
    · match more with
      | [] =>
        cases piece
        exact .inr ⟨four, by simp⟩
      | _ :: more =>
        have member : '\\' ∈ 'u' :: digits := by
          rw [(List.cons.inj piece).2]
          simp
        rcases List.mem_cons.mp member with equal | digit
        · cases equal
        · exact absurd digit (not_mem_of_looseUnit? spelled)

/-- Code units are held back exactly if the text ends in an escape. -/
theorem endsInEscape_iff (passed : Passed text units) : EndsInEscape text ↔ units ≠ [] := by
  constructor
  · rintro ⟨start, digits, split, free, four⟩
    rcases passed.whole split free with long | ⟨-, held⟩
    · omega
    · exact held
  · intro held
    cases passed with
    | start | plain | mark => exact absurd rfl held
    | escape passed four spelled => exact ⟨_, _, rfl, passed.closed, four⟩

end Passed

/-! ### Undoing escapes -/

theorem flush_fails_iff : Outcome.Fails (flush units) ↔ ¬ Utf16.IsWellFormed units := by
  rw [← Utf16.decode?_eq_none_iff, flush, Outcome.Fails]
  cases Utf16.decode? units <;> simp

theorem unitOf_eq_ok (spelled : looseUnit? digits = some unit) : unitOf digits = .ok unit := by
  obtain ⟨code, read, rfl⟩ := Option.map_eq_some_iff.mp spelled
  rw [unitOf, read]

theorem unitOf_fails (refused : looseUnit? digits = none) : Outcome.Fails (unitOf digits) := by
  rw [unitOf, Option.map_eq_none_iff.mp refused]
  exact ⟨_, rfl⟩

/-- What is wrong with a text behind one that has been passed: the code units held back and those
of the escapes that the text begins with are not well formed, or there is a fault in the text. -/
def Breaks (before : List Char) (units : List UInt16) (text : List Char) : Prop :=
  (∃ more, Run looseUnit? text more ∧ ¬ Utf16.IsWellFormed (units ++ more)) ∨
    FaultBehind looseUnit? before text

theorem breaks_iff_of_not_isPrefix (other : ¬ ['\\', 'u'] <+: text) :
    Breaks before units text ↔
      ¬ Utf16.IsWellFormed units ∨ FaultBehind looseUnit? before text := by
  simp [Breaks, run_iff_of_not_isPrefix other]

/-- With nothing held back, a run that is not well formed is a fault of the text. -/
theorem breaks_nil_iff (passed : Passed before []) :
    Breaks before [] text ↔ FaultBehind looseUnit? before text := by
  refine or_iff_right_of_imp ?_
  rintro ⟨units, run, broken⟩
  have first : ¬ EndsInEscape before := by simp [passed.endsInEscape_iff]
  refine ⟨[], text, rfl, ?_, ?_⟩
  · rw [List.append_nil]
    exact passed.closed
  · rw [List.append_nil]
    exact .unpaired first run broken

/-- A plain character ends the run before it. -/
theorem breaks_plain_iff (passed : Passed before units) (different : c ≠ '\\') :
    Breaks before units (c :: rest) ↔
      ¬ Utf16.IsWellFormed units ∨ Breaks (before ++ [c]) [] rest := by
  have other : ¬ ['\\', 'u'] <+: c :: rest := by simp [different.symm]
  rw [breaks_iff_of_not_isPrefix other, faultBehind_cons_of_not_isPrefix other,
    breaks_nil_iff (passed.plain different)]

/-- An escaped character ends the run before it. -/
theorem breaks_mark_iff (passed : Passed before units) (different : c ≠ 'u') :
    Breaks before units ('\\' :: c :: rest) ↔
      ¬ Utf16.IsWellFormed units ∨ Breaks (before ++ ['\\', c]) [] rest := by
  have other : ¬ ['\\', 'u'] <+: '\\' :: c :: rest := by simp [different.symm]
  have here : ¬ FaultAt looseUnit? before ('\\' :: c :: rest) := fun fault => other fault.isPrefix
  rw [breaks_iff_of_not_isPrefix other, faultBehind_backslash passed.closed, or_iff_right here,
    breaks_nil_iff (passed.mark different)]

/-- An escape that cannot be read is a fault. -/
theorem breaks_misspelled (passed : Passed before units)
    (refused : looseUnit? (rest.take 4) = none) : Breaks before units ('\\' :: 'u' :: rest) :=
  .inr ((faultBehind_backslash passed.closed).mpr (.inl (.misspelled refused)))

/-- An escape adds its code unit to those held back. -/
theorem breaks_escape_iff (passed : Passed before units) (digits rest : List Char)
    (taken : (digits ++ rest).take 4 = digits) (dropped : (digits ++ rest).drop 4 = rest)
    (spelled : looseUnit? digits = some unit) :
    Breaks before units ('\\' :: 'u' :: (digits ++ rest)) ↔
      Breaks (before ++ '\\' :: 'u' :: digits) (units ++ [unit]) rest := by
  have read : looseUnit? ((digits ++ rest).take 4) = some unit := by rw [taken, spelled]
  have runs : ∀ all, Run looseUnit? ('\\' :: 'u' :: (digits ++ rest)) all ↔
      ∃ more, Run looseUnit? rest more ∧ all = unit :: more := by
    intro all
    rw [run_escape_iff read, dropped]
  have behind : FaultBehind looseUnit? before ('\\' :: 'u' :: (digits ++ rest)) ↔
      FaultAt looseUnit? before ('\\' :: 'u' :: (digits ++ rest)) ∨
        FaultBehind looseUnit? (before ++ '\\' :: 'u' :: digits) rest := by
    rw [faultBehind_backslash passed.closed, faultBehind_append (not_mem_of_looseUnit? spelled)]
    simp
  have here : FaultAt looseUnit? before ('\\' :: 'u' :: (digits ++ rest)) →
      ∃ more, Run looseUnit? rest more ∧ ¬ Utf16.IsWellFormed (units ++ [unit] ++ more) := by
    intro fault
    cases fault with
    | misspelled refused =>
      rw [read] at refused
      cases refused
    | unpaired first run broken =>
      -- The run begins here, so nothing was held back before it.
      obtain ⟨more, others, rfl⟩ := (runs _).mp run
      have nothing : units = [] := by simpa [passed.endsInEscape_iff] using first
      exact ⟨more, others, by simpa [nothing] using broken⟩
  rw [Breaks, Breaks, behind, ← or_assoc]
  refine or_congr_left ?_
  constructor
  · rintro (⟨all, run, broken⟩ | fault)
    · obtain ⟨more, others, rfl⟩ := (runs _).mp run
      exact ⟨more, others, by simpa using broken⟩
    · exact here fault
  · rintro ⟨more, run, broken⟩
    exact .inl ⟨unit :: more, (runs _).mpr ⟨more, run, rfl⟩, by simpa using broken⟩

/-- **Undoing escapes fails exactly for a fault**, be it one of the text or of the code units held
back together with those that follow. -/
theorem fails_unescapeAfter_iff (passed : Passed before units) (text : List Char) :
    Outcome.Fails (unescapeAfter units text) ↔ Breaks before units text := by
  fun_induction unescapeAfter units text generalizing before with
  | case1 units =>
    rw [breaks_iff_of_not_isPrefix (by simp), flush_fails_iff, or_iff_left not_faultBehind_nil]
  | case2 units =>
    have single : ¬ FaultBehind looseUnit? before ['\\'] := by
      rw [faultBehind_cons_of_not_isPrefix (by simp)]
      exact not_faultBehind_nil
    rw [breaks_iff_of_not_isPrefix (by simp), flush_fails_iff, or_iff_left single]
  | case3 units a b c d more hypothesis =>
    cases spelled : looseUnit? [a, b, c, d] with
    | none =>
      obtain ⟨fault, failed⟩ := unitOf_fails spelled
      rw [failed]
      exact iff_of_true ⟨fault, rfl⟩ (breaks_misspelled passed spelled)
    | some unit =>
      rw [unitOf_eq_ok spelled]
      exact (hypothesis unit (passed.escape rfl spelled)).trans
        (breaks_escape_iff passed [a, b, c, d] more rfl rfl spelled).symm
  | case4 units few short =>
    have length : few.length ≤ 3 := by
      match few with
      | a :: b :: c :: d :: more => exact absurd rfl (short a b c d more)
      | [] | [_] | [_, _] | [_, _, _] => simp
    have taken : few.take 4 = few := List.take_of_length_le (by omega)
    have dropped : few.drop 4 = [] := List.drop_of_length_le (by omega)
    cases spelled : looseUnit? few with
    | none =>
      obtain ⟨fault, failed⟩ := unitOf_fails spelled
      rw [failed]
      exact iff_of_true ⟨fault, rfl⟩ (breaks_misspelled passed (by rw [taken, spelled]))
    | some unit =>
      have step := breaks_escape_iff passed few [] (by simp [taken]) (by simp [dropped]) spelled
      rw [List.append_nil] at step
      rw [unitOf_eq_ok spelled, step, breaks_iff_of_not_isPrefix (by simp),
        or_iff_left not_faultBehind_nil]
      exact flush_fails_iff
  | case5 units c more notU hypothesis =>
    rw [breaks_mark_iff passed notU, ← hypothesis (passed.mark notU), ← flush_fails_iff]
    refine Outcome.fails_bind_iff fun start => ?_
    exact Outcome.fails_bind_ok_iff _
  | case6 units c rest notBackslash hypothesis =>
    have different : c ≠ '\\' := notBackslash
    rw [breaks_plain_iff passed different, ← hypothesis (passed.plain different),
      ← flush_fails_iff]
    refine Outcome.fails_bind_iff fun start => ?_
    exact Outcome.fails_bind_ok_iff _

theorem fails_unescape_iff (text : List Char) :
    Outcome.Fails (unescape text) ↔ IsFaulty looseUnit? text := by
  rw [unescape, fails_unescapeAfter_iff .start, breaks_nil_iff .start, faultBehind_nil_iff]

/-! ### Escapes that are not spelled right -/

/-- Digits that are read although they are not four hexadecimal digits: less than four of them, or
some behind a plus sign. -/
def IsLax (digits : List Char) : Prop :=
  ∃ hex, hex ≠ [] ∧ (Numeral.digits? 16 hex).isSome ∧
    (digits = '+' :: hex ∨ digits = hex ∧ hex.length ≠ 4)

/-- What is spelled right is read as it is spelled. -/
theorem looseUnit?_of_strictUnit? (spelled : strictUnit? digits = some unit) :
    looseUnit? digits = some unit := by
  rw [strictUnit?] at spelled
  split at spelled
  · next four =>
    obtain ⟨code, read, rfl⟩ := Option.map_eq_some_iff.mp spelled
    have something : digits ≠ [] := by
      rintro rfl
      cases four
    have numeral : Numeral.read? 16 digits = some code :=
      Numeral.read?_eq_some_iff.mpr ⟨digits, something, read, .inr rfl⟩
    rw [looseUnit?, numeral]
    rfl
  · cases spelled

/-- What is read is spelled right, if it is not spelled laxly. -/
theorem looseUnit?_eq_none (refused : strictUnit? digits = none) (strict : ¬ IsLax digits) :
    looseUnit? digits = none := by
  rw [looseUnit?, Option.map_eq_none_iff, Option.eq_none_iff_forall_ne_some]
  intro code numeral
  obtain ⟨hex, something, read, signed | rfl⟩ := Numeral.read?_eq_some_iff.mp numeral
  · exact strict ⟨hex, something, by rw [read]; rfl, .inl signed⟩
  · by_cases four : digits.length = 4
    · rw [strictUnit?, if_pos four, read] at refused
      cases refused
    · exact strict ⟨digits, something, by rw [read]; rfl, .inr ⟨rfl, four⟩⟩

theorem Run.loose (run : Run strictUnit? text units) : Run looseUnit? text units := by
  induction run with
  | stop other => exact .stop other
  | escape spelled _ hypothesis => exact .escape (looseUnit?_of_strictUnit? spelled) hypothesis

/-- The escapes of a run are spelled right, or one of them is a fault. -/
theorem Run.strict (run : Run looseUnit? text units) (free : continues before = false) :
    Run strictUnit? text units ∨ FaultBehind strictUnit? before text := by
  induction run generalizing before with
  | stop other => exact .inl (.stop other)
  | @escape behind unit units spelled _ hypothesis =>
    cases right : strictUnit? (behind.take 4) with
    | none => exact .inr ((faultBehind_backslash free).mpr (.inl (.misspelled right)))
    | some other =>
      obtain rfl : unit = other := by
        have same := looseUnit?_of_strictUnit? right
        rw [spelled] at same
        exact Option.some.inj same
      have plain := not_mem_of_looseUnit? spelled
      rcases hypothesis (continues_escape before plain) with run | later
      · exact .inl (.escape right run)
      · rw [← List.take_append_drop 4 behind]
        refine .inr ((faultBehind_backslash free).mpr (.inr ?_))
        rw [faultBehind_append plain]
        simpa using later

/-- What is refused is a fault in the strict sense. -/
theorem IsFaulty.strict (faulty : IsFaulty looseUnit? text) : IsFaulty strictUnit? text := by
  obtain ⟨before, after, rfl, free, fault⟩ := faulty
  cases fault with
  | @misspelled behind refused =>
    refine ⟨before, _, rfl, free, .misspelled ?_⟩
    rw [Option.eq_none_iff_forall_ne_some]
    intro unit spelled
    rw [looseUnit?_of_strictUnit? spelled] at refused
    cases refused
  | unpaired first run broken =>
    rcases run.strict free with run | ⟨more, behind, rfl, later, fault⟩
    · exact ⟨before, after, rfl, free, .unpaired first run broken⟩
    · exact ⟨before ++ more, behind, by rw [List.append_assoc], later, fault⟩

/-- Whether an escape of a text is spelled laxly. -/
def HasLaxEscape (text : List Char) : Prop :=
  ∃ before behind, text = before ++ '\\' :: 'u' :: behind ∧ continues before = false ∧
    IsLax (behind.take 4)

/-- A fault in the strict sense is refused, unless there is an escape that is spelled laxly. -/
theorem IsFaulty.loose (faulty : IsFaulty strictUnit? text) (strict : ¬ HasLaxEscape text) :
    IsFaulty looseUnit? text := by
  obtain ⟨before, after, rfl, free, fault⟩ := faulty
  cases fault with
  | @misspelled behind refused =>
    have notLax : ¬ IsLax (behind.take 4) := fun lax => strict ⟨before, behind, rfl, free, lax⟩
    exact ⟨before, _, rfl, free, .misspelled (looseUnit?_eq_none refused notLax)⟩
  | unpaired first run broken => exact ⟨before, after, rfl, free, .unpaired first run.loose broken⟩

/-! ### Documents -/

/-- The keys and values of a document, still escaped. -/
def escapedTexts (text : String) : List (List Char) :=
  (logicalLines none (lines text.toList)).flatMap fun line =>
    [(splitPair line).1, (splitPair line).2]

theorem fails_readPair_iff (line : List Char) :
    Outcome.Fails (readPair line) ↔
      IsFaulty looseUnit? (splitPair line).1 ∨ IsFaulty looseUnit? (splitPair line).2 := by
  rw [← fails_unescape_iff, ← fails_unescape_iff]
  refine Outcome.fails_bind_iff fun key => ?_
  exact Outcome.fails_bind_ok_iff _

theorem fails_readPairs_iff (text : String) :
    Outcome.Fails (readPairs text) ↔ ∃ part ∈ escapedTexts text, IsFaulty looseUnit? part := by
  rw [readPairs, Outcome.fails_mapM_iff]
  constructor
  · rintro ⟨line, member, failed⟩
    rcases (fails_readPair_iff line).mp failed with key | value
    · exact ⟨_, List.mem_flatMap.mpr ⟨line, member, .head _⟩, key⟩
    · exact ⟨_, List.mem_flatMap.mpr ⟨line, member, .tail _ (.head _)⟩, value⟩
  · rintro ⟨part, listed, faulty⟩
    obtain ⟨line, member, here⟩ := List.mem_flatMap.mp listed
    refine ⟨line, member, (fails_readPair_iff line).mpr ?_⟩
    rcases List.mem_cons.mp here with rfl | here
    · exact .inl faulty
    · exact .inr (List.mem_singleton.mp here ▸ faulty)

theorem parse_eq_ok_iff (text : String) :
    (∃ map, parse text = .ok map) ↔ ¬ Outcome.Fails (readPairs text) := by
  rw [parse, Outcome.Fails]
  cases readPairs text <;> simp

theorem parse_eq_error_iff (text : String) :
    (∃ fault, parse text = .error (.invalidProperties fault)) ↔
      Outcome.Fails (readPairs text) := by
  rw [parse, Outcome.Fails]
  cases readPairs text <;> simp

/-- **Documents are refused exactly for a fault.** Every document is read or refused as one that
cannot be read; it is refused exactly if a key or a value has a fault, where escapes are read
loosely. So a document without a fault in the strict sense is read, and where no escape is spelled
laxly, a document with such a fault is refused. -/
theorem parse_refuses (text : String) :
    ((∃ map, parse text = .ok map) ∨ ∃ fault, parse text = .error (.invalidProperties fault)) ∧
    ((∃ fault, parse text = .error (.invalidProperties fault)) ↔
      ∃ part ∈ escapedTexts text, IsFaulty looseUnit? part) ∧
    ((∀ part ∈ escapedTexts text, ¬ IsFaulty strictUnit? part) → ∃ map, parse text = .ok map) ∧
    ((∀ part ∈ escapedTexts text, ¬ HasLaxEscape part) →
      ((∃ fault, parse text = .error (.invalidProperties fault)) ↔
        ∃ part ∈ escapedTexts text, IsFaulty strictUnit? part)) := by
  rw [parse_eq_ok_iff, parse_eq_error_iff, fails_readPairs_iff]
  refine ⟨(Classical.em _).symm, Iff.rfl, ?read, ?refused⟩
  case read =>
    rintro clean ⟨part, member, faulty⟩
    exact clean part member faulty.strict
  case refused =>
    intro right
    constructor
    · rintro ⟨part, member, faulty⟩
      exact ⟨part, member, faulty.strict⟩
    · rintro ⟨part, member, faulty⟩
      exact ⟨part, member, faulty.loose (right part member)⟩

/-- An escape of two digits is a fault in the strict sense, and is read. -/
theorem short_escape_read : ¬ ∀ text : String,
    (∃ part ∈ escapedTexts text, IsFaulty strictUnit? part) →
      ∃ fault, parse text = .error (.invalidProperties fault) := by
  intro refused
  have faulty : IsFaulty strictUnit? "\\u41".toList :=
    ⟨[], _, rfl, rfl, .misspelled (by decide)⟩
  obtain ⟨fault, failed⟩ := refused "k=\\u41" ⟨_, by decide, faulty⟩
  have read : (parse "k=\\u41").toOption = some (.ofList [("k", "A")]) := by decide +kernel
  rw [failed] at read
  cases read

end ExtensionCatalog.Properties
