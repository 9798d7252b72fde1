/-
**Numerals: unsigned numbers in a base.**

* `read?`: digits of the base, one or more, after an optional plus sign;
* `padded`: a fixed number of digits;
* `read?_padded`, `read?_repr`: padded and decimal numerals are read as what they spell;
* `read?_eq_some_iff`: nothing but digits is read, and the sign in front of them;
* `IsDecimal`, `read?_ten_eq_some_iff`: what decimal numerals spell.
-/

namespace ExtensionCatalog.Text.Numeral

/-- The value of a digit in either case, up to base sixteen. -/
def digitValue? (c : Char) : Option Nat :=
  if '0' ≤ c && c ≤ '9' then some (c.toNat - '0'.toNat)
  else if 'a' ≤ c && c ≤ 'f' then some (c.toNat - 'a'.toNat + 10)
  else if 'A' ≤ c && c ≤ 'F' then some (c.toNat - 'A'.toNat + 10)
  else none

/-- The number spelled by digits of the base, or nothing if one is no digit of it. -/
def digits? (base : Nat) (text : List Char) : Option Nat :=
  text.foldlM (fun number c => do
    let digit ← digitValue? c
    if digit < base then some (number * base + digit) else none) 0

/-- The number spelled by one or more digits of the base after an optional plus sign. -/
def read? (base : Nat) (text : List Char) : Option Nat :=
  match text with
  | [] => none
  | ['+'] => none
  | '+' :: rest => digits? base rest
  | _ => digits? base text

/-- The character of a digit below sixteen, in upper case. -/
def digitChar (digit : Nat) : Char :=
  if digit < 10 then Char.ofNat ('0'.toNat + digit) else Char.ofNat ('A'.toNat + (digit - 10))

/-- The last `width` digits of a number. -/
def padded (base : Nat) : Nat → Nat → List Char
  | 0, _ => []
  | width + 1, number => padded base width (number / base) ++ [digitChar (number % base)]

/-! ### Reading what is written -/

theorem digits?_append_singleton (base : Nat) (text : List Char) (c : Char) :
    digits? base (text ++ [c]) = (do
      let number ← digits? base text
      let digit ← digitValue? c
      if digit < base then some (number * base + digit) else none) := by
  simp [digits?, List.foldlM_append]

theorem digitValue?_digitChar {digit : Nat} (small : digit < 16) :
    digitValue? (digitChar digit) = some digit := by
  have all : ∀ digit < 16, digitValue? (digitChar digit) = some digit := by decide
  exact all digit small

/-- The last digits of a number spell its remainder. -/
theorem digits?_padded {base : Nat} (positive : 0 < base) (small : base ≤ 16)
    (width number : Nat) :
    digits? base (padded base width number) = some (number % Nat.pow base width) := by
  induction width generalizing number with
  | zero => simp [padded, digits?, Nat.mod_one]
  | succ width hypothesis =>
    have below : number % base < base := Nat.mod_lt _ positive
    have sum : number / base % Nat.pow base width * base + number % base =
        number % Nat.pow base (width + 1) := by
      rw [Nat.pow_eq, Nat.pow_eq, Nat.pow_succ', Nat.mod_mul, Nat.mul_comm, Nat.add_comm]
    rw [padded, digits?_append_singleton, hypothesis,
      digitValue?_digitChar (Nat.lt_of_lt_of_le below small), ← sum]
    simp [below]

/-- The characters of a padded numeral are digits of the base. -/
theorem mem_padded {base width number : Nat} (positive : 0 < base) {c : Char}
    (member : c ∈ padded base width number) : ∃ digit < base, c = digitChar digit := by
  induction width generalizing number with
  | zero => simp [padded] at member
  | succ width hypothesis =>
    rcases List.mem_append.mp member with earlier | last
    · exact hypothesis earlier
    · exact ⟨number % base, Nat.mod_lt _ positive, by simpa using last⟩

theorem read?_of_ne_plus {base : Nat} {c : Char} {rest : List Char} (unsigned : c ≠ '+') :
    read? base (c :: rest) = digits? base (c :: rest) := by
  unfold read?
  split <;> simp_all

/-- A padded numeral is read as the remainder that it spells. -/
theorem read?_padded {base : Nat} (positive : 0 < base) (small : base ≤ 16)
    (width number : Nat) :
    read? base (padded base (width + 1) number) = some (number % Nat.pow base (width + 1)) := by
  rw [← digits?_padded positive small]
  cases written : padded base (width + 1) number with
  | nil => simp [padded] at written
  | cons c rest =>
    refine read?_of_ne_plus fun plus => ?_
    obtain ⟨digit, below, equal⟩ := mem_padded positive (written ▸ List.mem_cons_self)
    have never : ∀ digit < 16, digitChar digit ≠ '+' := by decide
    exact never digit (Nat.lt_of_lt_of_le below small) (equal.symm.trans plus)

theorem digits?_toDigits (number : Nat) : digits? 10 (Nat.toDigits 10 number) = some number := by
  have single : ∀ digit < 10, digitValue? (Nat.digitChar digit) = some digit := by decide
  induction number using Nat.strongRecOn with
  | ind number hypothesis =>
    rw [Nat.toDigits_eq_if (by decide)]
    split
    · next below => simp [digits?, single number below, below]
    · next above =>
      have last : number % 10 < 10 := Nat.mod_lt _ (by decide)
      have sum : number / 10 * 10 + number % 10 = number := by omega
      rw [digits?_append_singleton, hypothesis (number / 10) (by omega), single _ last]
      simp [last, sum]

/-- The decimal numeral of a number is read as that number. -/
theorem read?_repr (number : Nat) : read? 10 number.repr.toList = some number := by
  rw [Nat.toList_repr, ← digits?_toDigits]
  cases written : Nat.toDigits 10 number with
  | nil => exact absurd written Nat.toDigits_ne_nil
  | cons c rest =>
    refine read?_of_ne_plus fun plus => ?_
    have digit := Nat.isDigit_of_mem_toDigits (by decide) (by decide)
      (written ▸ List.mem_cons_self : c ∈ Nat.toDigits 10 number)
    rw [plus] at digit
    exact absurd digit (by decide)

/-! ### What is read -/

/-- Every character of the digits of a number is a digit. -/
theorem isSome_of_mem_digits? {base number : Nat} {text : List Char}
    (read : digits? base text = some number) {c : Char} (member : c ∈ text) :
    (digitValue? c).isSome := by
  unfold digits? at read
  generalize 0 = start at read
  induction text generalizing start with
  | nil => cases member
  | cons first rest hypothesis =>
    rw [List.foldlM_cons] at read
    obtain ⟨next, here, later⟩ := Option.bind_eq_some_iff.mp read
    rcases List.mem_cons.mp member with rfl | member
    · obtain ⟨digit, value, -⟩ := Option.bind_eq_some_iff.mp here
      rw [value]
      rfl
    · exact hypothesis member next later

/-- Nothing but digits is read, one or more of them, and the sign in front of them. -/
theorem read?_eq_some_iff {base number : Nat} {text : List Char} :
    read? base text = some number ↔ ∃ digits, digits ≠ [] ∧ digits? base digits = some number ∧
      (text = '+' :: digits ∨ text = digits) := by
  constructor
  · intro read
    unfold read? at read
    split at read
    · cases read
    · cases read
    · next digits something => exact ⟨digits, something, read, .inl rfl⟩
    · next something _ _ => exact ⟨text, something, read, .inr rfl⟩
  · rintro ⟨digits, something, read, rfl | rfl⟩
    · cases digits with
      | nil => exact absurd rfl something
      | cons c rest => exact read
    · cases text with
      | nil => exact absurd rfl something
      | cons c rest =>
        have unsigned : c ≠ '+' := by
          rintro rfl
          exact absurd (isSome_of_mem_digits? read List.mem_cons_self) (by decide)
        rw [read?_of_ne_plus unsigned, read]

/-! ### Decimal numerals -/

/-- A decimal numeral and its number: one or more digits, with a plus sign in front of them or
not. -/
def IsDecimal (text : List Char) (number : Nat) : Prop :=
  ∃ digits, digits ≠ [] ∧ (∀ c ∈ digits, c.isDigit = true) ∧
    Nat.ofDigitChars 10 digits 0 = number ∧ (text = '+' :: digits ∨ text = digits)

/-- A decimal digit has its place behind zero as its value. -/
theorem digitValue?_eq_some_iff_of_lt {c : Char} {digit : Nat} :
    digitValue? c = some digit ∧ digit < 10 ↔ c.isDigit = true ∧ c.toNat - '0'.toNat = digit := by
  have decimal : c.isDigit = true ↔ '0' ≤ c ∧ c ≤ '9' := by
    simp [Char.isDigit, Char.le_def, UInt32.le_iff_toNat_le]
  rw [decimal]
  constructor
  · rintro ⟨found, small⟩
    unfold digitValue? at found
    split at found
    · next range =>
      cases found
      exact ⟨by simpa using range, rfl⟩
    · split at found
      · cases found
        omega
      · split at found
        · cases found
          omega
        · cases found
  · rintro ⟨range, rfl⟩
    have below : c.toNat ≤ '9'.toNat := UInt32.le_iff_toNat_le.mp range.2
    refine ⟨by simp [digitValue?, range], ?_⟩
    change c.toNat ≤ 57 at below
    change c.toNat - 48 < 10
    omega

/-- Decimal digits spell the number that they are the digits of. -/
theorem digits?_ten_eq_some_iff {text : List Char} {number : Nat} :
    digits? 10 text = some number ↔
      (∀ c ∈ text, c.isDigit = true) ∧ Nat.ofDigitChars 10 text 0 = number := by
  unfold digits?
  generalize 0 = start
  induction text generalizing start with
  | nil => simp [Nat.ofDigitChars]
  | cons c rest hypothesis =>
    rw [List.foldlM_cons]
    refine Option.bind_eq_some_iff.trans ?_
    simp only [hypothesis]
    simp only [Option.bind_eq_bind, Option.bind_eq_some_iff, Option.ite_none_right_eq_some,
      Option.some.injEq, List.forall_mem_cons]
    constructor
    · rintro ⟨next, ⟨digit, value, small, rfl⟩, others, rfl⟩
      obtain ⟨here, rfl⟩ := digitValue?_eq_some_iff_of_lt.mp ⟨value, small⟩
      exact ⟨⟨here, others⟩, by rw [Nat.ofDigitChars_cons, Nat.mul_comm]⟩
    · rintro ⟨⟨here, others⟩, rfl⟩
      obtain ⟨value, small⟩ := digitValue?_eq_some_iff_of_lt.mpr ⟨here, rfl⟩
      exact ⟨_, ⟨_, value, small, rfl⟩, others, by rw [Nat.ofDigitChars_cons, Nat.mul_comm]⟩

/-- **In base ten decimal numerals are read**, and nothing else. -/
theorem read?_ten_eq_some_iff {text : List Char} {number : Nat} :
    read? 10 text = some number ↔ IsDecimal text number := by
  simp only [read?_eq_some_iff, digits?_ten_eq_some_iff, IsDecimal, and_assoc]

end ExtensionCatalog.Text.Numeral
