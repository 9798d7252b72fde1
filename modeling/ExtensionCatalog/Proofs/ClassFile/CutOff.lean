/-
**Class files that are cut off.**

A class file that is read ends somewhere. What comes behind its end does not matter, and if only a
part of the bytes in front of it is there, reading says that the input is cut off. The body of an
attribute is an input of its own: what is missing in it is not made up for by the bytes behind it.

* `exact_constant`, `exact_pool`, `exact_read`: constants and class files;
* `Delimits`: reading finds the end of what it reads, and `Exact.delimits`, `delimits_within`: exact
  readers do so on whole inputs and on bodies;
* `parse_delimits`: **a class file that is cut off is not taken for a complete one**.
-/

import ExtensionCatalog.LoadingContext.Load
import ExtensionCatalog.Proofs.ClassFile.Depth

namespace ExtensionCatalog

open ByteReader

variable {pool : ConstantPool}

/-! ### Class files -/

theorem exact_constant (index : Nat) : Exact (ConstantPool.readConstant index) := by
  refine exact_one.bind fun tag => ?_
  split
  case h_1 =>
    refine exact_two.bind fun length => (exact_take _).bind fun text => ?_
    split
    · exact .pure _
    · exact .throw _
  all_goals first
    | exact exact_four.map _
    | exact exact_eight.map _
    | exact exact_two.map _
    | exact (exact_take _).map _
    | exact .throw _

theorem exact_places : ∀ places index, Exact (ConstantPool.readPlaces places index)
  | 0, _ => .pure []
  | places + 1, index => by
    rw [ConstantPool.readPlaces]
    refine (exact_constant index).bind fun constant => ?_
    split
    · -- A wide constant needs one place more.
      split
      · exact .throw _
      next fewer => exact (exact_places fewer (index + 2)).map _
    · exact (exact_places places (index + 1)).map _

theorem exact_pool : Exact ConstantPool.read := by
  refine exact_two.bind fun count => ?_
  split
  · exact .throw _
  · exact (exact_places _ _).map _

theorem exact_attribute : Exact (readAttribute pool) :=
  exact_two.bind fun _ => exact_four.bind fun _ => (Exact.lift _).bind fun _ => (exact_take _).map _

theorem exact_field : Exact (readField pool) :=
  (exact_take 6).bind fun _ => exact_two.bind fun _ => (exact_attribute.times _).map _

theorem exact_method : Exact (readMethod pool) := by
  refine exact_two.bind fun _ => exact_two.bind fun _ => exact_two.bind fun _ =>
    (Exact.lift _).bind fun name => exact_two.bind fun _ => (Exact.times _ ?_).map _
  refine exact_attribute.bind fun (label, body) => ?_
  dsimp only
  split
  · exact (Exact.within body _).map _
  · exact .pure []

theorem exact_classAttribute : Exact (readClassAttribute pool) := by
  refine exact_attribute.bind fun (label, body) => ?_
  dsimp only
  split
  · exact .within body _
  · exact .pure []

theorem exact_read : Exact ClassFile.read := by
  unfold ClassFile.read
  refine exact_four.bind fun magic => ?_
  split
  · exact .throw_bind _ _
  refine exact_two.bind fun _ => exact_two.bind fun _ => exact_pool.bind fun pool =>
    exact_two.bind fun _ => exact_two.bind fun _ => (Exact.lift _).bind fun _ =>
    exact_two.bind fun _ => ?_
  refine .bind_ite (.pure none) ((Exact.lift _).map _) fun _ => ?_
  have interface : Exact (do
      let index ← two
      pool.className index) := exact_two.bind fun _ => .lift _
  exact exact_two.bind fun _ => (interface.times _).bind fun _ =>
    exact_two.bind fun _ => (exact_field.times _).bind fun _ =>
    exact_two.bind fun _ => (exact_method.times _).bind fun _ =>
    exact_two.bind fun _ => (exact_classAttribute.times _).map _

/-! ### Where things end -/

/-- Reading finds the end of what it reads: whatever comes behind some first bytes, it yields the
value, and of fewer bytes it says what is wrong. -/
def Delimits {ε α : Type} (read : Bytes → Except ε α) (fault : ε) (bytes : Bytes) (value : α) :
    Prop :=
  ∃ length ≤ bytes.length, (∀ after, read (bytes.take length ++ after) = .ok value) ∧
    ∀ cut < length, read (bytes.take cut) = .error fault

section

variable {α : Type}

/-- An exact reader finds the end of what it reads. -/
theorem ByteReader.Exact.delimits {reader : ByteReader α} (exact : Exact reader)
    {input rest : Bytes} {value : α} (read : reader input = .ok (value, rest)) :
    Delimits (fun input => (reader input).map (·.1)) .truncated input value := by
  obtain ⟨taken, rfl, yields, breaks⟩ := exact _ _ _ read
  refine ⟨taken.length, by simp, fun after => ?_, fun cut less => ?_⟩
  · dsimp only
    rw [List.take_left, yields]
    rfl
  · have missing : taken.drop cut ≠ [] := List.drop_eq_nil_iff.not.mpr (by omega)
    dsimp only
    rw [List.take_append_of_le_length (by omega),
      breaks _ _ (List.take_append_drop cut taken).symm missing]
    rfl

/-- What is read of a body ends in the body, if it may be as deep as there are bytes in it and no
larger depth makes a difference. -/
theorem delimits_within {reader : Nat → ByteReader α} (exact : ∀ depth, Exact (reader depth))
    (agree : ∀ depth more, AgreeOn depth (reader depth) (reader (depth + more)))
    {body behind rest : Bytes} {value : α}
    (read : within body (reader body.length) behind = .ok (value, rest)) :
    rest = behind ∧ ∀ other,
      Delimits (fun body => within body (reader body.length) other) .truncated body
        (value, other) := by
  obtain ⟨⟨⟨found, left⟩, after⟩, looked, equal⟩ := Outcome.bind_eq_ok_iff.mp read
  obtain ⟨inside, whole, ⟨⟩⟩ := Outcome.bind_eq_ok_iff.mp looked
  cases equal
  refine ⟨rfl, fun other => ?_⟩
  obtain ⟨taken, rfl, yields, breaks⟩ := exact _ _ _ _ whole
  have alike {depth : Nat} {input : Bytes} (short : input.length ≤ depth) :
      reader depth input = reader input.length input := by
    obtain ⟨more, rfl⟩ := Nat.exists_eq_add_of_le short
    exact (agree _ more input (Nat.le_refl _)).symm
  have shorter : taken.length ≤ (taken ++ left).length := by simp
  refine ⟨taken.length, shorter, fun following => ?complete, fun cut less => ?cut⟩
  case complete =>
    have here := yields []
    rw [List.append_nil, alike shorter,
      ← alike (show taken.length ≤ (taken ++ following).length by simp)] at here
    obtain ⟨same, split, yields, -⟩ := exact _ _ _ _ here
    rw [List.append_nil] at split
    subst split
    dsimp only
    rw [List.take_left, within, yields following]
    rfl
  case cut =>
    have missing : taken.drop cut ≠ [] := List.drop_eq_nil_iff.not.mpr (by omega)
    have cutOff := breaks _ _ (List.take_append_drop cut taken).symm missing
    rw [alike (by rw [List.length_take, List.length_append]; omega)] at cutOff
    dsimp only
    rw [List.take_append_of_le_length (by omega), within, cutOff]
    rfl

theorem Delimits.mapError {ε ε' : Type} {read : Bytes → Except ε α} {fault : ε} {bytes : Bytes}
    {value : α} (delimits : Delimits read fault bytes value) (change : ε → ε') :
    Delimits (fun bytes => (read bytes).mapError change) (change fault) bytes value := by
  obtain ⟨length, within, whole, part⟩ := delimits
  refine ⟨length, within, fun after => ?_, fun cut less => ?_⟩
  · dsimp only
    rw [whole]
    rfl
  · dsimp only
    rw [part cut less]
    rfl

end

theorem delimits_annotationList {body behind rest : Bytes} {marks : List Annotation}
    (read : annotationList pool body behind = .ok (marks, rest)) :
    rest = behind ∧ ∀ other,
      Delimits (annotationList pool · other) .truncated body (marks, other) := by
  have exact (depth : Nat) : Exact (readMarks pool (readElementValue pool depth)) :=
    exact_readMarks (exact_elementValue pool depth)
  refine delimits_within exact (fun depth more => ?_) read
  exact (agreeOn_readMarks (agreeOn_elementValue pool depth more)
    (takes_elementValue pool depth)).mono (by omega)

theorem delimits_defaultValue {body behind rest : Bytes} {value : ElementValue}
    (read : defaultValue pool body behind = .ok (value, rest)) :
    rest = behind ∧ ∀ other,
      Delimits (defaultValue pool · other) .truncated body (value, other) :=
  delimits_within (exact_elementValue pool)
    (fun depth more => (agreeOn_elementValue pool depth more).mono (by omega)) read

/-- **A class file that is cut off is not taken for a complete one.** Where a class file is read,
some first bytes make it up: with anything behind these the same class is read, and of fewer bytes
it is said, by the name given for them, that they end too early. So it is with the bodies of
attributes, which the bytes behind them do not complete. -/
theorem parse_delimits (origin : String) :
    (∀ bytes file, ClassFile.parse bytes = .ok file →
      Delimits (ClassFile.parseFrom origin) (.invalidClassFile origin .truncated) bytes file) ∧
    (∀ pool body behind marks rest, annotationList pool body behind = .ok (marks, rest) →
      rest = behind ∧ ∀ other,
        Delimits (annotationList pool · other) .truncated body (marks, other)) ∧
    (∀ pool body behind value rest, defaultValue pool body behind = .ok (value, rest) →
      rest = behind ∧ ∀ other,
        Delimits (defaultValue pool · other) .truncated body (value, other)) := by
  refine ⟨fun bytes file parsed => ?_, fun _ _ _ _ _ => delimits_annotationList,
    fun _ _ _ _ _ => delimits_defaultValue⟩
  obtain ⟨⟨found, rest⟩, read, equal⟩ := Outcome.bind_eq_ok_iff.mp parsed
  cases equal
  exact (exact_read.delimits read).mapError _

/-- The class file of an annotated class, with two bytes behind it. -/
def trailedClass : Bytes :=
  ClassFile.Layout.bytes {
    minorVersion := 0, majorVersion := 52
    pool := [.text "A", .classRef 1, .text "RuntimeVisibleAnnotations", .text "LD;"]
    accessFlags := 1, name := 2, superName := 0, interfaces := [], fields := [], methods := []
    attributes := [.known 3 [⟨4, []⟩]] } ++ [0xCA, 0xFE]

/-- Constants for a body of one annotation and for one of a string, each with a byte too many. -/
def bodyPool : ConstantPool := #[none, some (.string "LD;")]

theorem parse_delimits_trailed :
    (∃ file, ClassFile.parse trailedClass = .ok file ∧ Delimits (ClassFile.parseFrom "A")
      (.invalidClassFile "A" .truncated) trailedClass file) ∧
    (annotationList bodyPool [0, 1, 0, 1, 0, 0, 7] [9] = .ok ([⟨"D", []⟩], [9]) ∧
      Delimits (annotationList bodyPool · [0, 8]) .truncated [0, 1, 0, 1, 0, 0, 7]
        ([⟨"D", []⟩], [0, 8])) ∧
    defaultValue bodyPool [115, 0, 1, 7] [9] = .ok (.string "LD;", [9]) ∧
      Delimits (defaultValue bodyPool · [0, 8]) .truncated [115, 0, 1, 7]
        (.string "LD;", [0, 8]) := by
  have read : (ClassFile.parse trailedClass).toOption.isSome := by decide +kernel
  obtain ⟨file, found⟩ := Option.isSome_iff_exists.mp read
  have parsed := Outcome.eq_ok_of_toOption found
  have marks : annotationList bodyPool [0, 1, 0, 1, 0, 0, 7] [9] = .ok ([⟨"D", []⟩], [9]) := by rfl
  have value : defaultValue bodyPool [115, 0, 1, 7] [9] = .ok (.string "LD;", [9]) := by rfl
  obtain ⟨classes, lists, values⟩ := parse_delimits "A"
  exact ⟨⟨file, parsed, classes _ _ parsed⟩, ⟨marks, (lists _ _ _ _ _ marks).2 _⟩, value,
    (values _ _ _ _ _ value).2 _⟩

end ExtensionCatalog
