/-
**Annotations are bounded by the bytes that they are read from.**

Values are read by a reader that uses itself for the values in a value. Nothing in it says how deep
it may go, and the numbers of values that it goes by are whatever an input claims. Still it comes to
an end on every input, as each value takes three bytes before the values in it are read. The depth
that values are read with in the model is only there to say so, and is never used up.

That reading comes to an end is said by the equation that it solves. Were there an input that it
went round in circles on, or went into values without end, nothing would settle its answer there,
and the equation would have as many solutions as there are faults to answer with. It has one.

* `readValue`: a value, with a depth for every input that is enough for it;
* `agreeOn_readValue_tagged`: what it does on an input is settled by what it does on inputs that are
  three bytes shorter;
* `eq_readValue_iff`: it is the only reader that uses itself for the values in a value;
* `Annotation.count`: how many values there are in an annotation;
* `takes_readValue`, `takes_mark`, `takes_marks`: how many bytes it takes;
* `readValue_bounded`: **annotations are bounded by the body they are read from**.
-/

import ExtensionCatalog.Proofs.ClassFile.Depth

namespace ExtensionCatalog

open ByteReader

/-- Read a value, however deep values are nested in it. -/
def readValue (pool : ConstantPool) : ByteReader ElementValue := fun input =>
  readElementValue pool input.length input

/-- The number of values in an annotation. -/
def Annotation.count (mark : Annotation) : Nat :=
  (mark.elements.map fun element => element.2.count).sum

variable {pool : ConstantPool}

/-! ### The recursion -/

/-- A limited depth is as good as none on inputs with three bytes for each level. -/
theorem agreeOn_readValue (pool : ConstantPool) (depth : Nat) :
    AgreeOn (3 * depth) (readElementValue pool depth) (readValue pool) := by
  intro input short
  rcases Nat.le_total depth input.length with shallow | deep
  · obtain ⟨more, long⟩ := Nat.exists_eq_add_of_le shallow
    rw [readValue, long]
    exact agreeOn_elementValue pool depth more input short
  · obtain ⟨more, rfl⟩ := Nat.exists_eq_add_of_le deep
    exact (agreeOn_elementValue pool input.length more input (by omega)).symm

theorem takes_readValue (pool : ConstantPool) :
    Takes (readValue pool) fun value => 3 * value.count :=
  fun input => takes_elementValue pool input.length input

/-- What is read of an input is settled by what is read of inputs that are three bytes shorter. -/
theorem agreeOn_readValue_tagged {length : Nat} {reader : ByteReader ElementValue}
    (agree : AgreeOn length (readValue pool) reader) :
    AgreeOn (length + 3) (readValue pool) (do readTagged pool reader (← one)) := by
  have limited : AgreeOn length (readElementValue pool length) (readValue pool) :=
    (agreeOn_readValue pool length).mono (by omega)
  have whole : AgreeOn (length + 3) (readElementValue pool (length + 1)) (readValue pool) :=
    (agreeOn_readValue pool (length + 1)).mono (by omega)
  intro input short
  rw [← whole input short]
  refine agreeOn_tagged ?_ (takes_elementValue pool length) input short
  exact fun inner shorter => (limited inner shorter).trans (agree inner shorter)

/-- There is one reader that reads the values in a value by itself. -/
theorem eq_readValue_iff {reader : ByteReader ElementValue} :
    (reader = do readTagged pool reader (← one)) ↔ reader = readValue pool := by
  constructor
  · intro recursive
    have agree (depth : Nat) : AgreeOn (3 * depth) (readElementValue pool depth) reader := by
      induction depth with
      | zero =>
        intro input short
        rw [List.length_eq_zero_iff.mp (Nat.le_zero.mp short), recursive]
        rfl
      | succ depth hypothesis =>
        rw [recursive]
        exact agreeOn_tagged hypothesis (takes_elementValue pool depth)
    funext input
    exact (agree input.length input (by omega)).symm
  · rintro rfl
    funext input
    exact agreeOn_readValue_tagged (fun _ _ => rfl) input (Nat.le_add_right input.length 3)

/-- The annotations in a body are read without a limit of depth. -/
theorem annotationList_eq (pool : ConstantPool) (body : Bytes) :
    annotationList pool body = within body (readMarks pool (readValue pool)) := by
  have agree : AgreeOn _ (readMarks pool (readElementValue pool body.length))
      (readMarks pool (readValue pool)) :=
    agreeOn_readMarks (agreeOn_readValue pool body.length) (takes_elementValue pool body.length)
  show within body (readMarks pool (readElementValue pool body.length)) = _
  rw [within, within, agree body (by omega)]

/-! ### Bytes for values -/

/-- An annotation takes three bytes for each value in it, and four for itself. -/
theorem takes_mark (pool : ConstantPool) :
    Takes (readMark pool (readValue pool)) fun mark => 3 * mark.count + 4 := by
  refine (takes_readMark (takes_readValue pool)).mono fun mark => ?_
  unfold Annotation.count
  rw [← List.sum_map_mul_left]

/-- Annotations in a row take as much together, and the two bytes of their number. -/
theorem takes_marks (pool : ConstantPool) :
    Takes (readMarks pool (readValue pool)) fun marks =>
      3 * (marks.map Annotation.count).sum + 4 * marks.length := by
  refine takes_two.bind fun number => ((takes_mark pool).times _).mono fun marks => ?_
  have together : (marks.map fun mark => 3 * mark.count + 4).sum =
      3 * (marks.map Annotation.count).sum + 4 * marks.length := by
    rw [List.sum_map_add, List.sum_map_mul_left, List.map_const', List.sum_replicate_nat,
      Nat.mul_comm marks.length]
  rw [together]
  exact Nat.sub_le _ 2

/-- **Annotations are bounded by the body they are read from.** Whatever the constants are, there is
one reader, and no other, that reads the values in a value by itself: on an input it does what its
answers on inputs that are three bytes shorter make of it. The bodies of attributes are read by it.
What it reads it takes off the front of a body, three bytes for each value, however deep it is
nested, and four for each annotation that is not in a value. A value is nested no deeper than there
are values in it. -/
theorem readValue_bounded (pool : ConstantPool) :
    (∀ reader : ByteReader ElementValue,
      (reader = do readTagged pool reader (← one)) ↔ reader = readValue pool) ∧
    (∀ (length : Nat) (reader : ByteReader ElementValue),
      AgreeOn length (readValue pool) reader →
        AgreeOn (length + 3) (readValue pool) (do readTagged pool reader (← one))) ∧
    (∀ body, defaultValue pool body = within body (readValue pool) ∧
      annotationList pool body = within body (readMarks pool (readValue pool))) ∧
    (∀ body value rest, readValue pool body = .ok (value, rest) →
      ∃ taken, body = taken ++ rest ∧ 3 * value.count ≤ taken.length) ∧
    (∀ body mark rest, readMark pool (readValue pool) body = .ok (mark, rest) →
      ∃ taken, body = taken ++ rest ∧ 3 * mark.count + 4 ≤ taken.length) ∧
    (∀ body marks rest, readMarks pool (readValue pool) body = .ok (marks, rest) →
      ∃ taken, body = taken ++ rest ∧
        3 * (marks.map Annotation.count).sum + 4 * marks.length ≤ taken.length) ∧
    ∀ value : ElementValue, value.depth ≤ value.count :=
  ⟨fun _ => eq_readValue_iff, fun _ _ => agreeOn_readValue_tagged,
    fun body => ⟨rfl, annotationList_eq pool body⟩, takes_readValue pool, takes_mark pool,
    takes_marks pool, ElementValue.depth_le_count⟩

/-- An array of two empty arrays, with a byte behind it. No value takes more than three bytes. -/
def arraysBody : Bytes := [91, 0, 2, 91, 0, 0, 91, 0, 0, 7]

/-- What is read of it. -/
def arrays : ElementValue := .array [.array [], .array []]

/-- An annotation whose one element is an empty array; its name and type are one constant. -/
def markBody : Bytes := [0, 1, 0, 1, 0, 1, 0, 1, 91, 0, 0]

def markPool : ConstantPool := #[none, some (.string "LD;")]

theorem readValue_bounded_arrays :
    (readValue markPool arraysBody = .ok (arrays, [7]) ∧
      ∃ taken, arraysBody = taken ++ [7] ∧ 3 * arrays.count ≤ taken.length) ∧
    (readMark markPool (readValue markPool) (markBody.drop 2) =
        .ok (⟨"D", [("LD;", .array [])]⟩, []) ∧
      ∃ taken, markBody.drop 2 = taken ++ [] ∧
        3 * Annotation.count ⟨"D", [("LD;", .array [])]⟩ + 4 ≤ taken.length) ∧
    (readMarks markPool (readValue markPool) markBody = .ok ([⟨"D", [("LD;", .array [])]⟩], []) ∧
      ∃ taken, markBody = taken ++ [] ∧
        3 * ([⟨"D", [("LD;", .array [])]⟩].map Annotation.count).sum + 4 * 1 ≤ taken.length) ∧
    AgreeOn 3 (readValue markPool) (readElementValue markPool 1) ∧
    AgreeOn 6 (readValue markPool) (do readTagged markPool (readElementValue markPool 1) (← one)) ∧
    arrays.count = 3 ∧ arrays.depth = 2 := by
  obtain ⟨-, step, -, values, mark, marks, -⟩ := readValue_bounded markPool
  have value : readValue markPool arraysBody = .ok (arrays, [7]) := by rfl
  have one : readMark markPool (readValue markPool) (markBody.drop 2) =
      .ok (⟨"D", [("LD;", .array [])]⟩, []) := by rfl
  have list : readMarks markPool (readValue markPool) markBody =
      .ok ([⟨"D", [("LD;", .array [])]⟩], []) := by rfl
  have shallow : AgreeOn 3 (readValue markPool) (readElementValue markPool 1) :=
    fun input short => (agreeOn_readValue markPool 1 input short).symm
  refine ⟨⟨value, values _ _ _ value⟩, ⟨one, mark _ _ _ one⟩, ⟨list, marks _ _ _ list⟩, shallow,
    step 3 _ shallow, ?_, ?_⟩
  · simp [arrays, ElementValue.count_eq, ElementValue.children]
  · simp [arrays, ElementValue.depth_eq, ElementValue.children]

end ExtensionCatalog
