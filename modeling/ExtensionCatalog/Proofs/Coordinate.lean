/-
**Written coordinates are read as what they stand for.**

A coordinate is written with four or five parts between colons and read from three, four or five,
with any white space around them. So a coordinate is lost in writing if a part is missing or holds
a colon, or if white space of its own is taken for white space around it; nothing else is lost, and
nothing that was read is of this kind.

* `IsPart`, `IsWritable`: the parts, and the coordinates, that can be written;
* `IsForm`, `ofParts?_eq_some_iff`: the lists of parts that stand for a coordinate;
* `parse?_eq_some_iff`: **what is read**: a form of a coordinate that can be written;
* `parse_toString_iff`: **what is written is read again** exactly if it can be written.
-/

import ExtensionCatalog.Error

namespace ExtensionCatalog

namespace Coordinate

/-- Whether a text can be a part of a written coordinate. -/
def IsPart (text : String) : Prop := text ≠ "" ∧ ':' ∉ text.toList

/-- Whether a coordinate can be written so that it is read again. -/
structure IsWritable (coordinate : Coordinate) : Prop where
  group : IsPart coordinate.group
  artifact : IsPart coordinate.artifact
  version : IsPart coordinate.version
  kind : IsPart coordinate.kind
  classifier : ∀ classifier, coordinate.classifier = some classifier → IsPart classifier
  /-- The group comes first, and white space in front of it is not read. -/
  start : ∀ c, coordinate.group.toList.head? = some c → Text.isBlank c = false
  /-- The version comes last, and white space behind it is not read. -/
  ending : ∀ c, coordinate.version.toList.getLast? = some c → Text.isBlank c = false

/-- The parts that a coordinate is read from: all that it has, or group, artifact id and version if
the rest is as usual. -/
inductive IsForm (coordinate : Coordinate) : List String → Prop
  | full : IsForm coordinate coordinate.parts
  | short (kind : coordinate.kind = defaultKind) (plain : coordinate.classifier = none) :
      IsForm coordinate [coordinate.group, coordinate.artifact, coordinate.version]

variable {coordinate : Coordinate} {parts : List String} {text : String}

/-- **Parts are read as the coordinate that they stand for.** -/
theorem ofParts?_eq_some_iff : ofParts? parts = some coordinate ↔ IsForm coordinate parts := by
  constructor
  · intro read
    unfold ofParts? at read
    split at read
    · cases read
      exact .short rfl rfl
    · cases read
      exact .full
    · cases read
      exact .full
    · cases read
  · obtain ⟨group, artifact, version, kind, classifier⟩ := coordinate
    rintro (_ | ⟨sort, plain⟩)
    · cases classifier <;> rfl
    · cases sort
      cases plain
      rfl

namespace IsForm

variable (form : IsForm coordinate parts)
include form

/-- The group comes first and the version last. -/
theorem exists_middle : ∃ middle, parts = coordinate.group :: (middle ++ [coordinate.version]) := by
  cases form with
  | full => exact ⟨coordinate.artifact :: coordinate.kind :: coordinate.classifier.toList, rfl⟩
  | short => exact ⟨[coordinate.artifact], rfl⟩

/-- All parts can be written exactly if all fields can. -/
theorem forall_isPart_iff : (∀ part ∈ parts, IsPart part) ↔
    IsPart coordinate.group ∧ IsPart coordinate.artifact ∧ IsPart coordinate.version ∧
      IsPart coordinate.kind ∧
      ∀ classifier, coordinate.classifier = some classifier → IsPart classifier := by
  cases form with
  | full =>
    simp only [Coordinate.parts, List.mem_append, List.mem_cons, List.not_mem_nil, or_false,
      Option.mem_toList, or_imp, forall_and, forall_eq]
    exact ⟨fun ⟨⟨⟨group, artifact, kind⟩, classifier⟩, version⟩ =>
        ⟨group, artifact, version, kind, classifier⟩,
      fun ⟨group, artifact, version, kind, classifier⟩ =>
        ⟨⟨⟨group, artifact, kind⟩, classifier⟩, version⟩⟩
  | short kind plain =>
    have sort : IsPart coordinate.kind := by
      rw [kind]
      exact ⟨by decide, by decide⟩
    simp [plain, sort]

theorem prefix_intercalate :
    coordinate.group.toList <+: (String.intercalate ":" parts).toList := by
  obtain ⟨middle, rfl⟩ := form.exists_middle
  rw [String.toList_intercalate, List.map_cons]
  exact (Text.join_eq_intercalate ':' _) ▸ Text.prefix_join ':' _ _

theorem suffix_intercalate :
    coordinate.version.toList <:+ (String.intercalate ":" parts).toList := by
  obtain ⟨middle, rfl⟩ := form.exists_middle
  rw [String.toList_intercalate, ← List.cons_append, List.map_append]
  exact (Text.join_eq_intercalate ':' _) ▸ Text.suffix_join ':' _ _

end IsForm

/-- A form of a coordinate is read whole exactly if there is no white space around it. -/
theorem IsForm.trimmed_eq_self_iff (form : IsForm coordinate parts) (group : coordinate.group ≠ "")
    (version : coordinate.version ≠ "") :
    Text.trimmed (String.intercalate ":" parts) = String.intercalate ":" parts ↔
      (∀ c, coordinate.group.toList.head? = some c → Text.isBlank c = false) ∧
        ∀ c, coordinate.version.toList.getLast? = some c → Text.isBlank c = false := by
  rw [← Text.head?_eq_of_prefix group form.prefix_intercalate,
    ← Text.getLast?_eq_of_suffix version form.suffix_intercalate, Text.trimmed,
    ← String.toList_inj, String.toList_ofList]
  constructor
  · intro trimmed
    rw [← trimmed]
    exact ⟨fun c => Text.head?_trim, fun c => Text.getLast?_trim⟩
  · rintro ⟨start, ending⟩
    exact Text.trim_eq_self start ending

/-- **What is read** is a form of a coordinate that can be written, with white space around it. -/
theorem parse?_eq_some_iff : parse? text = some coordinate ↔
    coordinate.IsWritable ∧
      ∃ parts, IsForm coordinate parts ∧ Text.trimmed text = String.intercalate ":" parts := by
  constructor
  · intro read
    unfold parse? at read
    dsimp only at read
    split at read
    · cases read
    · next none =>
      have form := ofParts?_eq_some_iff.mp read
      have each : ∀ part ∈ Text.splitText ':' (Text.trimmed text), IsPart part := by
        intro part member
        refine ⟨?_, Text.not_mem_of_mem_splitText member⟩
        rintro rfl
        exact none (List.any_eq_true.mpr ⟨"", member, rfl⟩)
      obtain ⟨group, artifact, version, kind, classifier⟩ := form.forall_isPart_iff.mp each
      have whole : Text.trimmed text = String.intercalate ":" _ :=
        (Text.intercalate_splitText ':' (Text.trimmed text)).symm
      have again : Text.trimmed (Text.trimmed text) = Text.trimmed text := by
        simp only [Text.trimmed, String.toList_ofList]
        rw [Text.trim_eq_self (fun c => Text.head?_trim) (fun c => Text.getLast?_trim)]
      rw [whole] at again
      obtain ⟨start, ending⟩ := (form.trimmed_eq_self_iff group.1 version.1).mp again
      exact ⟨⟨group, artifact, version, kind, classifier, start, ending⟩, _, form, whole⟩
  · rintro ⟨writable, parts, form, trimmed⟩
    have each := form.forall_isPart_iff.mpr ⟨writable.group, writable.artifact, writable.version,
      writable.kind, writable.classifier⟩
    have some : parts ≠ [] := by
      obtain ⟨middle, rfl⟩ := form.exists_middle
      exact List.cons_ne_nil _ _
    have split : Text.splitText ':' (Text.trimmed text) = parts := by
      rw [trimmed]
      exact Text.splitText_intercalate some fun part member => (each part member).2
    have full : parts.any (·.isEmpty) = false := by
      rw [List.any_eq_false]
      intro part member
      rw [String.isEmpty_iff]
      exact (each part member).1
    rw [parse?, split]
    simp only [full, Bool.false_eq_true, if_false]
    exact ofParts?_eq_some_iff.mpr form

/-- What is written is read again exactly if it can be written. -/
theorem parse?_toString_eq_self_iff :
    parse? (toString coordinate) = some coordinate ↔ coordinate.IsWritable := by
  rw [parse?_eq_some_iff]
  refine ⟨And.left, fun writable => ⟨writable, coordinate.parts, .full, ?_⟩⟩
  exact (IsForm.full.trimmed_eq_self_iff writable.group.1 writable.version.1).mpr
    ⟨writable.start, writable.ending⟩

theorem parse_eq_ok_iff : parse text = .ok coordinate ↔ parse? text = some coordinate := by
  rw [parse]
  cases parse? text <;> simp

theorem parse_eq_error_iff {error : Error} :
    parse text = .error error ↔ parse? text = none ∧ error = .invalidCoordinate text := by
  rw [parse]
  cases parse? text <;> simp [eq_comm]

/-- **Reading undoes writing exactly where nothing gets lost.** What was read is not changed by
writing and reading it, and on such coordinates no two are written alike. -/
theorem parse_toString_iff :
    (∀ coordinate : Coordinate,
      parse (toString coordinate) = .ok coordinate ↔ coordinate.IsWritable) ∧
    (∀ (text : String) (coordinate : Coordinate), parse text = .ok coordinate →
      coordinate.IsWritable ∧ parse (toString coordinate) = .ok coordinate) ∧
    ∀ first second : Coordinate, first.IsWritable → second.IsWritable →
      toString first = toString second → first = second := by
  have again (coordinate : Coordinate) :
      parse (toString coordinate) = .ok coordinate ↔ coordinate.IsWritable :=
    parse_eq_ok_iff.trans parse?_toString_eq_self_iff
  refine ⟨again, fun text coordinate read => ?_, fun first second writable writable' same => ?_⟩
  · have writable := (parse?_eq_some_iff.mp (parse_eq_ok_iff.mp read)).1
    exact ⟨writable, (again coordinate).mpr writable⟩
  · have read := (again first).mpr writable
    rw [same, (again second).mpr writable'] at read
    exact (Except.ok.inj read).symm

/-- A coordinate with white space where it does not matter. -/
def spaced : Coordinate := ⟨"org.example ", "two words", " 2.0", "nar", some " "⟩

/-- Reading, writing and reading `spaced`, and two names for one coordinate. -/
theorem parse_toString_iff_spaced :
    parse "\n org.example :two words:nar: : 2.0 " = .ok spaced ∧ spaced.IsWritable ∧
      parse (toString spaced) = .ok spaced ∧ (jar "g" "a" "1").IsWritable ∧
      toString (jar "g" "a" "1") = toString (⟨"g", "a", "1", "jar", none⟩ : Coordinate) ∧
      jar "g" "a" "1" = ⟨"g", "a", "1", "jar", none⟩ := by
  have read : parse "\n org.example :two words:nar: : 2.0 " = .ok spaced :=
    parse_eq_ok_iff.mpr (by decide)
  have short : parse "g:a:1" = .ok (jar "g" "a" "1") := parse_eq_ok_iff.mpr (by decide)
  have writable := (parse_toString_iff.2.1 _ _ read)
  have named := (parse_toString_iff.2.1 _ _ short).1
  exact ⟨read, writable.1, writable.2, named, rfl, parse_toString_iff.2.2 _ _ named named rfl⟩

end Coordinate

end ExtensionCatalog
