/-
**White space: the Unicode property, and trimming.** Also ASCII letters in lower case.

* `isBlank`: the twenty-five characters of the property `White_Space`;
* `toLower_eq_iff`, `mem_map_toLower_iff`: which characters become a given one in lower case;
* `trimStart_of_not_blank`: text that does not begin with white space is left alone there;
* `head?_trimStart`: a trimmed start begins with no white space;
* `trimStart_append`, `trimStart_blanks_append`: trimming the start of a text put together of two;
* `head?_trim`, `getLast?_trim`, `trim_eq_self`: a text is trimmed exactly if it neither begins nor
  ends with white space.
-/

namespace ExtensionCatalog.Text

/-- The characters of the Unicode property `White_Space`. -/
def isBlank (c : Char) : Bool :=
  (0x09 ≤ c.toNat && c.toNat ≤ 0x0D) || c.toNat == 0x20 || c.toNat == 0x85 || c.toNat == 0xA0 ||
    c.toNat == 0x1680 || (0x2000 ≤ c.toNat && c.toNat ≤ 0x200A) || c.toNat == 0x2028 ||
    c.toNat == 0x2029 || c.toNat == 0x202F || c.toNat == 0x205F || c.toNat == 0x3000

/-- Text without its leading white space. -/
def trimStart (text : List Char) : List Char := text.dropWhile isBlank

/-- Text without its trailing white space. -/
def trimEnd (text : List Char) : List Char := (text.reverse.dropWhile isBlank).reverse

/-- Text without its leading and trailing white space. -/
def trim (text : List Char) : List Char := trimEnd (trimStart text)

/-- A string without its leading and trailing white space. -/
def trimmed (text : String) : String := String.ofList (trim text.toList)

/-- Whether a string has nothing but white space. -/
def isBlankText (text : String) : Bool := text.toList.all isBlank

/-- A string with its ASCII letters in lower case. -/
def asciiLowercase (text : String) : String := String.ofList (text.toList.map Char.toLower)

/-- Lower case turns no other character into one that is no letter. -/
theorem toLower_eq_iff {sign : Char} (noLetter : sign.isAlpha = false) (c : Char) :
    c.toLower = sign ↔ c = sign := by
  unfold Char.toLower
  split
  · next capital =>
    obtain ⟨noCapital, noSmall⟩ := Bool.or_eq_false_iff.mp noLetter
    refine iff_of_false ?_ ?_
    · rintro rfl
      -- Capital letters are moved from 65 to 90 by 32.
      have least : 65 ≤ c.val.toNat := UInt32.le_iff_toNat_le.mp capital.1
      have greatest : c.val.toNat ≤ 90 := UInt32.le_iff_toNat_le.mp capital.2
      have shift : ('a'.val - 'A'.val).toNat = 32 := rfl
      have code : (c.val + ('a'.val - 'A'.val)).toNat = c.val.toNat + 32 := by
        rw [UInt32.toNat_add, shift]
        omega
      have first : 'a'.val ≤ c.val + ('a'.val - 'A'.val) := by
        rw [UInt32.le_iff_toNat_le, code]
        exact Nat.add_le_add_right least 32
      have last : c.val + ('a'.val - 'A'.val) ≤ 'z'.val := by
        rw [UInt32.le_iff_toNat_le, code]
        exact Nat.add_le_add_right greatest 32
      exact absurd (Bool.and_eq_true_iff.mpr ⟨decide_eq_true first, decide_eq_true last⟩)
        (Bool.eq_false_iff.mp noSmall)
    · rintro rfl
      exact absurd (decide_eq_true capital) (Bool.eq_false_iff.mp noCapital)
  · exact Iff.rfl

/-- Lower case neither brings in nor takes away a character that is no letter. -/
theorem mem_map_toLower_iff {sign : Char} (noLetter : sign.isAlpha = false) {text : List Char} :
    sign ∈ text.map Char.toLower ↔ sign ∈ text := by
  simp only [List.mem_map, toLower_eq_iff noLetter, exists_eq_right]

theorem trimStart_of_not_blank {c : Char} {rest : List Char} (visible : isBlank c = false) :
    trimStart (c :: rest) = c :: rest := by
  simp [trimStart, visible]

/-- What is left of a trimmed start begins with no white space. -/
theorem head?_trimStart (text : List Char) {c : Char} (first : (trimStart text).head? = some c) :
    isBlank c = false := by
  induction text with
  | nil => simp [trimStart] at first
  | cons head rest hypothesis =>
    by_cases blank : isBlank head
    · exact hypothesis (by simpa [trimStart, blank] using first)
    · have : c = head := by simpa [trimStart, blank, eq_comm] using first
      simpa [this] using blank

/-- Text behind something that is not blank is left alone. -/
theorem trimStart_append {text : List Char} (something : trimStart text ≠ []) (rest : List Char) :
    trimStart (text ++ rest) = trimStart text ++ rest := by
  have visible : ¬ (text.dropWhile isBlank).isEmpty = true := by
    rw [List.isEmpty_iff]
    exact something
  rw [trimStart, List.dropWhile_append, if_neg visible, ← trimStart]

/-- White space in front of a text is trimmed with it. -/
theorem trimStart_blanks_append {blanks : List Char} (blank : ∀ c ∈ blanks, isBlank c = true)
    (rest : List Char) : trimStart (blanks ++ rest) = trimStart rest :=
  List.dropWhile_append_of_pos blank

theorem trimStart_eq_self {text : List Char}
    (visible : ∀ c, text.head? = some c → isBlank c = false) : trimStart text = text := by
  cases text with
  | nil => rfl
  | cons c rest => exact trimStart_of_not_blank (visible c rfl)

theorem trimEnd_eq_self {text : List Char}
    (visible : ∀ c, text.getLast? = some c → isBlank c = false) : trimEnd text = text := by
  rw [trimEnd, ← trimStart, trimStart_eq_self, List.reverse_reverse]
  intro c first
  rw [List.head?_reverse] at first
  exact visible c first

/-- Text that neither begins nor ends with white space is left alone. -/
theorem trim_eq_self {text : List Char} (start : ∀ c, text.head? = some c → isBlank c = false)
    (ending : ∀ c, text.getLast? = some c → isBlank c = false) : trim text = text := by
  rw [trim, trimStart_eq_self start, trimEnd_eq_self ending]

theorem trimEnd_prefix (text : List Char) : trimEnd text <+: text := by
  rw [← List.reverse_suffix, trimEnd, List.reverse_reverse]
  exact List.dropWhile_suffix isBlank

/-- A trimmed text does not begin with white space. -/
theorem head?_trim {text : List Char} {c : Char} (first : (trim text).head? = some c) :
    isBlank c = false := by
  obtain ⟨cut, whole⟩ := trimEnd_prefix (trimStart text)
  refine head?_trimStart text (c := c) ?_
  rw [← whole, List.head?_append, ← trim, first, Option.some_or]

/-- A trimmed text does not end with white space. -/
theorem getLast?_trim {text : List Char} {c : Char} (last : (trim text).getLast? = some c) :
    isBlank c = false := by
  rw [trim, trimEnd, List.getLast?_reverse] at last
  exact head?_trimStart _ last

end ExtensionCatalog.Text
