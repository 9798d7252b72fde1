/-
**Values are nested no deeper than there are bytes for it.**

The values in a value begin at least three bytes behind it: its letter stands in front of them, and
their number or the type of an annotation. So reading may go into them as deep as it likes, without
being stopped by the depth that it is given.

* `readTagged_cases`: what there is behind the letter of a value;
* `exact_elementValue`, `takes_elementValue`: what reading a value takes off an input;
* `AgreeOn`: readers that do the same on short inputs;
* `agreeOn_tagged`: values that are read alike in short inputs are read alike in longer ones;
* `agreeOn_elementValue`: a value is read in the same way however deep values may be nested, if
  there are three bytes for each level.
-/

import ExtensionCatalog.Proofs.ClassFile.Exact
import ExtensionCatalog.Proofs.ClassFile.Taken

namespace ExtensionCatalog

open ByteReader

variable {pool : ConstantPool}

/-- Read annotations whose values are read by `value`, led by their number. -/
def readMarks (pool : ConstantPool) (value : ByteReader ElementValue) :
    ByteReader (List Annotation) := do
  let count ← two
  times count.toNat (readMark pool value)

/-! ### Values -/

/-- What stands behind a letter is read without reading values, or it is an annotation or an
array. -/
theorem readTagged_cases (pool : ConstantPool) (tag : UInt8) :
    (∃ plain, Exact plain ∧ Takes plain (fun value => 3 * value.count - 1) ∧
      ∀ value, readTagged pool value tag = plain) ∨
    (∀ value, readTagged pool value tag = do
      let mark ← readMark pool value
      return .nested mark.typeName mark.elements) ∨
    (∀ value, readTagged pool value tag = do
      let count ← two
      return .array (← times count.toNat value)) := by
  -- The index of a constant has two bytes, and no values are in what it denotes.
  have single {value : ElementValue} (childless : value.children = []) :
      Takes (pure value) fun value => 3 * value.count - 1 - 2 - 0 :=
    .pure (by rw [ElementValue.count_of_children_eq_nil childless])
  unfold readTagged
  split
  case h_12 => exact .inr (.inl fun _ => rfl)
  case h_13 => exact .inr (.inr fun _ => rfl)
  case h_6 | h_7 | h_8 =>
    refine .inl ⟨_, exact_two.bind fun _ => (Exact.lift _).bind fun constant => ?exact,
      takes_two.bind fun _ => (Takes.lift _).bind fun constant => ?takes, fun _ => rfl⟩
    case exact =>
      split
      · exact .pure _
      · exact .throw _
    case takes =>
      split
      · exact single rfl
      · exact .throw _
  case h_10 =>
    refine .inl ⟨_, exact_two.bind fun _ => exact_two.bind fun _ => (Exact.lift _).bind fun _ =>
      (Exact.lift _).map _, takes_two.bind fun _ => takes_two.bind fun _ =>
      (Takes.lift _).bind fun _ => (Takes.lift _).bind fun _ => .pure ?_, fun _ => rfl⟩
    rw [ElementValue.count_of_children_eq_nil rfl]
  case h_14 => exact .inl ⟨_, .throw _, .throw _, fun _ => rfl⟩
  all_goals
    exact .inl ⟨_, exact_two.bind fun _ => (Exact.lift _).map _,
      takes_two.bind fun _ => (Takes.lift _).bind fun _ => single rfl, fun _ => rfl⟩

theorem exact_readMark {value : ByteReader ElementValue} (exact : Exact value) :
    Exact (readMark pool value) := by
  refine exact_two.bind fun typeIndex => (Exact.lift _).bind fun typeName =>
    exact_two.bind fun count => (Exact.times _ ?_).map _
  exact exact_two.bind fun nameIndex => (Exact.lift _).bind fun name => exact.map _

theorem exact_readMarks {value : ByteReader ElementValue} (exact : Exact value) :
    Exact (readMarks pool value) :=
  exact_two.bind fun _ => (exact_readMark exact).times _

theorem exact_elementValue (pool : ConstantPool) (depth : Nat) :
    Exact (readElementValue pool depth) := by
  induction depth with
  | zero => exact .throw _
  | succ depth hypothesis =>
    refine exact_one.bind fun tag => ?_
    rcases readTagged_cases pool tag with ⟨plain, exact, -, same⟩ | same | same
    · rw [same]
      exact exact
    · rw [same]
      exact (exact_readMark hypothesis).map _
    · rw [same]
      exact exact_two.bind fun count => (Exact.times _ hypothesis).map _

section Values

variable {value : ByteReader ElementValue} {weight : ElementValue → Nat}

theorem takes_element (pool : ConstantPool) (takes : Takes value weight) : Takes (do
    let name ← pool.string (← two)
    return (name, ← value)) fun element => weight element.2 :=
  takes_two.bind fun _ => (Takes.lift _).bind fun _ => takes.bind fun _ => .pure (by simp)

/-- The type of an annotation and the number of its elements stand in front of these. -/
theorem takes_readMark (takes : Takes value weight) : Takes (readMark pool value) fun mark =>
    (mark.elements.map fun element => weight element.2).sum + 4 :=
  takes_two.bind fun _ => (Takes.lift _).bind fun _ => takes_two.bind fun _ =>
    ((takes_element pool takes).times _).bind fun _ => .pure (by simp)

end Values

/-- A value takes three bytes for each value in it, itself among them. -/
theorem takes_elementValue (pool : ConstantPool) (depth : Nat) :
    Takes (readElementValue pool depth) fun value => 3 * value.count := by
  induction depth with
  | zero => exact .throw _
  | succ depth hypothesis =>
    refine takes_one.bind fun tag => ?_
    rcases readTagged_cases pool tag with ⟨plain, -, takes, same⟩ | same | same
    · rw [same]
      exact takes
    · rw [same]
      refine (takes_readMark hypothesis).bind fun mark => .pure ?_
      rw [ElementValue.mul_count]
      simp only [ElementValue.children, List.map_map, Function.comp_def]
      omega
    · rw [same]
      refine takes_two.bind fun count => (hypothesis.times _).bind fun values => .pure ?_
      rw [ElementValue.mul_count]
      simp only [ElementValue.children]
      omega

/-! ### Depth -/

namespace ByteReader

variable {α β : Type}

/-- Two readers do the same on inputs of at most some length. -/
def AgreeOn (length : Nat) (first second : ByteReader α) : Prop :=
  ∀ input : Bytes, input.length ≤ length → first input = second input

namespace AgreeOn

variable {length : Nat} {reader first second : ByteReader α} {next other : α → ByteReader β}

theorem refl (reader : ByteReader α) : AgreeOn length reader reader := fun _ _ => rfl

theorem bind {weight : α → Nat} (agree : AgreeOn length first second) (takes : Takes first weight)
    (later : ∀ value, AgreeOn length (next value) (other value)) :
    AgreeOn length (first >>= next) (second >>= other) := by
  intro input short
  show (first input >>= fun result => next result.1 result.2) =
    (second input >>= fun result => other result.1 result.2)
  rw [← agree input short]
  refine Outcome.bind_congr_of_ok fun result read => later result.1 result.2 ?_
  exact Nat.le_trans (Nat.le_of_add_right_le (takes.length_le read)) short

/-- Bytes that are taken are no longer there when the next reader begins. -/
theorem behind {width : Nat} (takes : Takes reader fun _ => width)
    (later : ∀ value, AgreeOn length (next value) (other value)) :
    AgreeOn (length + width) (reader >>= next) (reader >>= other) := by
  intro input short
  refine Outcome.bind_congr_of_ok fun result read => later result.1 result.2 ?_
  exact Nat.le_of_add_le_add_right (Nat.le_trans (takes.length_le read) short)

theorem mono {shorter : Nat} (agree : AgreeOn length first second) (less : shorter ≤ length) :
    AgreeOn shorter first second :=
  fun input short => agree input (Nat.le_trans short less)

theorem times {weight : α → Nat} (agree : AgreeOn length first second) (takes : Takes first weight)
    (count : Nat) : AgreeOn length (times count first) (times count second) := by
  induction count with
  | zero => exact refl _
  | succ count hypothesis =>
    exact agree.bind takes fun value => hypothesis.bind (takes.times count) fun _ => refl _

end AgreeOn

end ByteReader

section Alike

variable {length : Nat} {first second : ByteReader ElementValue} {weight : ElementValue → Nat}

theorem agreeOn_readMark (agree : AgreeOn length first second) (takes : Takes first weight) :
    AgreeOn (length + 2 + 2) (readMark pool first) (readMark pool second) := by
  have element := takes_element pool takes
  refine .behind takes_two fun _ => .bind (.refl _) (.lift _) fun _ =>
    .behind takes_two fun _ => .bind (.times ?_ element _) (element.times _) fun _ => .refl _
  exact .bind (.refl _) takes_two fun _ => .bind (.refl _) (.lift _) fun _ =>
    .bind agree takes fun _ => .refl _

theorem agreeOn_readMarks (agree : AgreeOn length first second) (takes : Takes first weight) :
    AgreeOn (length + 2) (readMarks pool first) (readMarks pool second) := by
  have mark : AgreeOn length (readMark pool first) (readMark pool second) :=
    (agreeOn_readMark agree takes).mono (Nat.le_add_right _ 4)
  exact .behind takes_two fun _ => mark.times (takes_readMark takes) _

/-- Values that are read alike in short inputs are read alike in inputs that are three bytes
longer: the values in a value begin behind its letter, and behind their number or the type of an
annotation. -/
theorem agreeOn_tagged (agree : AgreeOn length first second) (takes : Takes first weight) :
    AgreeOn (length + 3) (do readTagged pool first (← one))
      (do readTagged pool second (← one)) := by
  show AgreeOn (length + 2 + 1) _ _
  refine .behind takes_one fun tag => ?_
  rcases readTagged_cases pool tag with ⟨plain, -, -, same⟩ | same | same
  · rw [same, same]
    exact .refl plain
  · rw [same, same]
    have mark : AgreeOn (length + 2) (readMark pool first) (readMark pool second) :=
      (agreeOn_readMark agree takes).mono (Nat.le_add_right _ 2)
    exact mark.bind (takes_readMark takes) fun _ => .refl _
  · rw [same, same]
    exact .behind takes_two fun _ => .bind (agree.times takes _) (takes.times _) fun _ => .refl _

end Alike

/-- Three bytes for each level are enough: no larger depth makes a difference. -/
theorem agreeOn_elementValue (pool : ConstantPool) (depth more : Nat) :
    AgreeOn (3 * depth) (readElementValue pool depth) (readElementValue pool (depth + more)) := by
  induction depth with
  | zero =>
    intro input short
    rw [List.length_eq_zero_iff.mp (Nat.le_zero.mp short), Nat.zero_add]
    cases more <;> rfl
  | succ depth hypothesis =>
    rw [Nat.add_right_comm]
    exact agreeOn_tagged hypothesis (takes_elementValue pool depth)

end ExtensionCatalog
