/-
**How many bytes are taken for what is read.**

A reader that succeeds takes bytes off the front of its input. What it yields may say how many these
are at least: an annotation value takes more of them the more values are nested in it.

* `Takes`: the number of bytes that a reader takes is at least some weight of what it yields;
* `Takes.bind`, `Takes.map`, `Takes.times`: how this composes;
* `ElementValue.count`, `ElementValue.depth`: how many values there are in a value, and how deep
  they are nested;
* `ElementValue.depth_le_count`: values that are nested deep are many.
-/

import Mathlib.Algebra.BigOperators.Ring.List
import Mathlib.Algebra.Ring.Nat
import ExtensionCatalog.Proofs.ClassFile.Reading

namespace ExtensionCatalog

namespace ByteReader

variable {α β : Type} {reader : ByteReader α} {next : α → ByteReader β}

/-- A reader that succeeds takes bytes off the front of its input, at least as many as what it
yields weighs. -/
def Takes (reader : ByteReader α) (weight : α → Nat) : Prop :=
  ∀ input value rest, reader input = .ok (value, rest) →
    ∃ taken, input = taken ++ rest ∧ weight value ≤ taken.length

namespace Takes

variable {weight lighter : α → Nat} {total : β → Nat}

theorem pure {value : α} (nothing : weight value = 0) : Takes (pure value) weight := by
  intro input found rest read
  cases read
  exact ⟨[], rfl, Nat.le_of_eq nothing⟩

theorem throw (fault : ClassFileFault) : Takes (throw fault : ByteReader α) weight := by
  intro input value rest read
  cases read

/-- A lookup takes no bytes. -/
theorem lift (outcome : Except ClassFileFault α) :
    Takes (liftM outcome : ByteReader α) fun _ => 0 := by
  intro input value rest read
  cases outcome with
  | error fault => cases read
  | ok found =>
    cases read
    exact ⟨[], rfl, Nat.le_refl 0⟩

theorem mono (takes : Takes reader weight) (light : ∀ value, lighter value ≤ weight value) :
    Takes reader lighter := by
  intro input value rest read
  obtain ⟨taken, whole, enough⟩ := takes _ _ _ read
  exact ⟨taken, whole, Nat.le_trans (light value) enough⟩

/-- Two readers in a row: the second one takes what the first one leaves to be taken. -/
theorem bind (first : Takes reader weight)
    (later : ∀ value, Takes (next value) fun result => total result - weight value) :
    Takes (reader >>= next) total := by
  intro input result rest read
  obtain ⟨⟨value, middle⟩, here, after⟩ := Outcome.bind_eq_ok_iff.mp read
  obtain ⟨early, rfl, enough⟩ := first _ _ _ here
  obtain ⟨late, rfl, more⟩ := later value _ _ _ after
  have together : total result ≤ early.length + late.length :=
    Nat.sub_le_iff_le_add'.mp (Nat.le_trans (Nat.sub_le_sub_left enough _) more)
  exact ⟨early ++ late, (List.append_assoc _ _ _).symm, List.length_append ▸ together⟩

/-- A reader with its value changed. -/
theorem map {change : α → β} (takes : Takes reader fun value => total (change value)) :
    Takes (reader >>= fun value => Pure.pure (change value)) total :=
  takes.bind fun _ => pure (Nat.sub_self _)

/-- A reader that is used some times. -/
theorem times (count : Nat) (takes : Takes reader weight) :
    Takes (times count reader) fun values => (values.map weight).sum := by
  induction count with
  | zero => exact pure rfl
  | succ count hypothesis =>
    refine takes.bind fun first => map (hypothesis.mono fun values => Nat.le_of_eq ?_)
    rw [List.map_cons, List.sum_cons, Nat.add_sub_cancel_left]

/-- What is left of an input is no longer than the input. -/
theorem length_le (takes : Takes reader weight) {input rest : Bytes} {value : α}
    (read : reader input = .ok (value, rest)) : rest.length + weight value ≤ input.length := by
  obtain ⟨taken, rfl, enough⟩ := takes _ _ _ read
  rw [List.length_append]
  omega

end Takes

/-! ### Bytes and numbers -/

theorem takes_take (count : Nat) : Takes (take count) fun _ => count := by
  intro input taken rest read
  unfold take at read
  split at read
  next found =>
    cases read
    obtain ⟨whole, long⟩ := Bytes.takeExact_eq_some_iff.mp found
    exact ⟨taken, whole, Nat.le_of_eq long.symm⟩
  next => cases read

theorem takes_number (width : Nat) : Takes (number width) fun _ => width :=
  (takes_take width).bind fun _ => .pure (Nat.sub_self _)

theorem takes_one : Takes one fun _ => 1 :=
  (takes_number 1).bind fun _ => .pure (Nat.sub_self _)

theorem takes_two : Takes two fun _ => 2 :=
  (takes_number 2).bind fun _ => .pure (Nat.sub_self _)

end ByteReader

/-! ### Values in values -/

namespace ElementValue

/-- The values that stand in a value, directly. -/
def children : ElementValue → List ElementValue
  | nested _ elements => elements.map (·.2)
  | array values => values
  | _ => []

theorem sizeOf_lt_of_mem_children {value child : ElementValue} (member : child ∈ value.children) :
    sizeOf child < sizeOf value := by
  cases value with
  | nested typeName elements =>
    obtain ⟨element, inside, rfl⟩ := List.mem_map.mp member
    have smaller := List.sizeOf_lt_of_mem inside
    have larger : sizeOf element.2 < sizeOf element := by
      cases element
      simp only [Prod.mk.sizeOf_spec]
      omega
    simp only [nested.sizeOf_spec]
    omega
  | array values =>
    have smaller : sizeOf child < sizeOf values := List.sizeOf_lt_of_mem member
    simp only [array.sizeOf_spec]
    omega
  | _ => cases member

/-- The number of values in a value, itself among them. -/
def count (value : ElementValue) : Nat :=
  (value.children.attach.map fun child => child.1.count).sum + 1
termination_by sizeOf value
decreasing_by exact sizeOf_lt_of_mem_children child.2

/-- How deep values are nested in a value, itself counted. -/
def depth (value : ElementValue) : Nat :=
  (value.children.attach.map fun child => child.1.depth).foldr max 0 + 1
termination_by sizeOf value
decreasing_by exact sizeOf_lt_of_mem_children child.2

theorem count_eq (value : ElementValue) :
    value.count = (value.children.map count).sum + 1 := by
  rw [count, List.attach_map_val]

theorem depth_eq (value : ElementValue) :
    value.depth = (value.children.map depth).foldr max 0 + 1 := by
  rw [depth, List.attach_map_val]

/-- As many bytes for each value are those for the values in a value, and those for itself. -/
theorem mul_count (weight : Nat) (value : ElementValue) :
    weight * value.count = (value.children.map fun child => weight * child.count).sum + weight := by
  rw [count_eq, Nat.mul_add, Nat.mul_one, List.sum_map_mul_left]

theorem count_of_children_eq_nil {value : ElementValue} (childless : value.children = []) :
    value.count = 1 := by
  rw [count_eq, childless]
  rfl

/-- Values that are nested deep are many. -/
theorem depth_le_count (value : ElementValue) : value.depth ≤ value.count := by
  induction value using count.induct with
  | case1 value hypothesis =>
    rw [depth_eq, count_eq]
    refine Nat.succ_le_succ ?_
    generalize value.children = children at hypothesis
    induction children with
    | nil => exact Nat.le_refl 0
    | cons child others rest =>
      have here : child.depth ≤ child.count := hypothesis ⟨child, .head _⟩
      have behind := rest fun other => hypothesis ⟨other.1, .tail _ other.2⟩
      simp only [List.map_cons, List.foldr_cons, List.sum_cons]
      omega

end ElementValue

end ExtensionCatalog
