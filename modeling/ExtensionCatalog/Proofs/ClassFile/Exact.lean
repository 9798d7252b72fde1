/-
**Readers that notice what is missing.**

A reader that succeeds has taken some bytes off its input. What comes behind these does not matter
to it, and if only a part of them is there it says that the input is cut off. This composes like
reading does.

* `BreaksOff`: every part of some bytes is found to be cut off;
* `Exact`: readers of this kind;
* `Exact.bind`, `Exact.within`, `Exact.times`: how they compose;
* `exact_take`, `exact_number`: bytes and numbers.
-/

import ExtensionCatalog.Proofs.ClassFile.Reading

namespace ExtensionCatalog

namespace ByteReader

variable {α β : Type} {reader : ByteReader α} {next : α → ByteReader β}

/-! ### Exact readers -/

/-- A reader finds every part of some bytes that is not all of them to be cut off. -/
def BreaksOff (reader : ByteReader α) (bytes : Bytes) : Prop :=
  ∀ before after, bytes = before ++ after → after ≠ [] → reader before = .error .truncated

/-- A reader that succeeds takes bytes off its input, whatever comes behind them, and breaks off
where some of them are missing. -/
def Exact (reader : ByteReader α) : Prop :=
  ∀ input value rest, reader input = .ok (value, rest) →
    ∃ taken, input = taken ++ rest ∧ Yields reader taken value ∧ BreaksOff reader taken

theorem BreaksOff.nil (reader : ByteReader α) : BreaksOff reader [] := fun _ _ whole more =>
  absurd (List.append_eq_nil_iff.mp whole.symm).2 more

/-- Two readers in a row break off in the bytes of the first or in those of the second. -/
theorem BreaksOff.bind {early late : Bytes} {first : α} (yields : Yields reader early first)
    (here : BreaksOff reader early) (later : BreaksOff (next first) late) :
    BreaksOff (reader >>= next) (early ++ late) := by
  intro before after whole more
  show (reader before >>= fun result => next result.1 result.2) = _
  rcases List.append_eq_append_iff.mp whole with ⟨middle, rfl, rfl⟩ | ⟨middle, rfl, rfl⟩
  · rw [yields]
    exact later middle after rfl more
  · by_cases none : middle = []
    · subst none
      have whole := yields []
      rw [List.append_nil, List.append_nil] at whole
      rw [whole]
      exact later [] _ rfl more
    · rw [here before middle rfl none]
      rfl

namespace Exact

theorem pure (value : α) : Exact (pure value) := by
  intro input found rest read
  cases read
  exact ⟨[], rfl, Yields.pure value, .nil _⟩

theorem throw (fault : ClassFileFault) : Exact (throw fault : ByteReader α) := by
  intro input value rest read
  cases read

/-- Nothing is read behind a fault. -/
theorem throw_bind (fault : ClassFileFault) (next : α → ByteReader β) :
    Exact ((MonadExcept.throw fault : ByteReader α) >>= next) := by
  intro input value rest read
  cases read

/-- A lookup takes no bytes. -/
theorem lift (outcome : Except ClassFileFault α) : Exact (liftM outcome : ByteReader α) := by
  intro input value rest read
  cases outcome with
  | error fault => cases read
  | ok found =>
    cases read
    exact ⟨[], rfl, .lift rfl, .nil _⟩

/-- Two readers in a row. -/
theorem bind (first : Exact reader) (later : ∀ value, Exact (next value)) :
    Exact (reader >>= next) := by
  intro input result rest read
  obtain ⟨⟨value, middle⟩, here, after⟩ := Outcome.bind_eq_ok_iff.mp read
  obtain ⟨early, rfl, yields, breaks⟩ := first _ _ _ here
  obtain ⟨late, rfl, yieldsLater, breaksLater⟩ := later value _ _ _ after
  exact ⟨early ++ late, (List.append_assoc _ _ _).symm, yields.bind yieldsLater,
    .bind yields breaks breaksLater⟩

/-- A reader with its value changed. -/
theorem map (exact : Exact reader) (change : α → β) :
    Exact (reader >>= fun value => Pure.pure (change value)) :=
  exact.bind fun _ => pure _

/-- One of two readers before another one. -/
theorem bind_ite {condition : Prop} [Decidable condition] {yes no : ByteReader α}
    (whenYes : Exact yes) (whenNo : Exact no) (later : ∀ value, Exact (next value)) :
    Exact (if condition then yes >>= next else no >>= next) := by
  split
  · exact whenYes.bind later
  · exact whenNo.bind later

/-- A reader on an input of its own takes nothing off the one it stands in. -/
theorem within (body : Bytes) (reader : ByteReader α) : Exact (within body reader) :=
  (lift (reader body)).map (·.1)

/-- A reader that is used some times. -/
theorem times (count : Nat) (exact : Exact reader) : Exact (times count reader) := by
  induction count with
  | zero => exact pure []
  | succ count hypothesis => exact exact.bind fun first => hypothesis.map _

end Exact

/-! ### Bytes and numbers -/

theorem exact_take (count : Nat) : Exact (take count) := by
  intro input taken rest read
  unfold take at read
  cases found : input.takeExact count with
  | none =>
    rw [found] at read
    cases read
  | some result =>
    rw [found] at read
    cases read
    obtain ⟨rfl, long⟩ := Bytes.takeExact_eq_some_iff.mp found
    refine ⟨taken, rfl, yields_take long, ?_⟩
    rintro before after rfl more
    have short : Bytes.takeExact count before = none := by
      refine Option.eq_none_iff_forall_ne_some.mpr fun ⟨first, others⟩ enough => more ?_
      obtain ⟨rfl, exactly⟩ := Bytes.takeExact_eq_some_iff.mp enough
      simp only [List.length_append] at long
      exact List.length_eq_zero_iff.mp (by omega)
    rw [take, short]

theorem exact_number (width : Nat) : Exact (number width) := (exact_take width).map _

theorem exact_one : Exact one := (exact_number 1).map _

theorem exact_two : Exact two := (exact_number 2).map _

theorem exact_four : Exact four := (exact_number 4).map _

theorem exact_eight : Exact eight := (exact_number 8).map _

end ByteReader

end ExtensionCatalog
