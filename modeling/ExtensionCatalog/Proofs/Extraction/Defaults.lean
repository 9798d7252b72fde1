/-
**Omitting an element is stating its default.**

An annotation that leaves out an element and one that states the default which its type declares are
read alike, whatever the kind of the default: either both classes are described in the same way, or
both are refused with the same error.

* `StatesDefault`: an annotation with one default stated that another one leaves to its type;
* `Completes`: the same for the annotation itself or for one entry of its restrictions;
* `ReadsAlike`: two markers of one type that only differ in entries which are read alike;
* `readsAlike_of_completes`: completing an annotation leaves its marker alike;
* `extract_eq_of_completes`: **stating a default does not change what is extracted**.
-/

import ExtensionCatalog.Proofs.Extraction.Explanations

namespace ExtensionCatalog

/-- The value that an annotation is, as an entry of another one. -/
def Annotation.toValue (mark : Annotation) : ElementValue := .nested mark.typeName mark.elements

/-- The class with other annotations. -/
def LoadedClass.withAnnotations (loaded : LoadedClass) (annotations : List Annotation) :
    LoadedClass :=
  { loaded with file := { loaded.file with annotations } }

/-! ### Looking up elements and annotations -/

namespace Annotation

theorem find?_nil (typeName element : String) : find? ⟨typeName, []⟩ element = none := rfl

/-- A stated element hides those behind it. -/
theorem find?_middle (typeName name element : String) (front back : List (String × ElementValue))
    (value : ElementValue) :
    find? ⟨typeName, front ++ (name, value) :: back⟩ element =
      (find? ⟨typeName, front⟩ element).or
        (if name = element then some value else find? ⟨typeName, back⟩ element) := by
  simp only [find?, List.find?_append, Option.map_or]
  by_cases same : name = element
  · simp [same]
  · rw [List.find?_cons_of_neg (by simpa using same), if_neg same]

end Annotation

/-- Annotations are found as before if one is replaced by another one of its type, or else that one
is found in its place. -/
theorem LoadedClass.annotation?_withAnnotations {loaded : LoadedClass}
    {before after : List Annotation} {mark full : Annotation}
    (uses : loaded.file.annotations = before ++ mark :: after)
    (sameType : mark.typeName = full.typeName) (typeName : String) :
    (loaded.withAnnotations (before ++ full :: after)).file.annotation? typeName =
        loaded.file.annotation? typeName ∨
      loaded.file.annotation? typeName = some mark ∧
        (loaded.withAnnotations (before ++ full :: after)).file.annotation? typeName =
          some full := by
  simp only [ClassFile.annotation?, uses, withAnnotations, List.find?_append]
  cases before.find? (·.typeName == typeName) with
  | some found => exact .inl rfl
  | none =>
    by_cases asked : mark.typeName = typeName
    · rw [List.find?_cons_of_pos (by simpa [← sameType] using asked),
        List.find?_cons_of_pos (by simpa using asked)]
      exact .inr ⟨rfl, rfl⟩
    · rw [List.find?_cons_of_neg (by simpa [← sameType] using asked),
        List.find?_cons_of_neg (by simpa using asked)]
      exact .inl rfl

/-! ### Markers of one type -/

namespace Marker

variable {first second : Marker} {element : String}

/-- Two markers of one type on one class. Their errors are the same. -/
structure IsAlike (first second : Marker) : Prop where
  className : first.className = second.className
  typeName : first.mark.typeName = second.mark.typeName

theorem IsAlike.invalid_eq (alike : first.IsAlike second) : first.invalid = second.invalid := by
  funext fault
  rw [invalid, invalid, alike.className, alike.typeName]

theorem IsAlike.text?_eq (alike : first.IsAlike second)
    (same : first.value? element = second.value? element) :
    first.text? element = second.text? element := by
  unfold text?
  rw [same, alike.invalid_eq]

theorem IsAlike.items_eq (alike : first.IsAlike second)
    (same : first.value? element = second.value? element) :
    first.items element = second.items element := by
  unfold items
  rw [same, alike.invalid_eq]

/-- Two annotations of a type are viewed with the same defaults, or both fail in the same way. -/
theorem view_bind_eq {α : Type} {context : LoadingContext} {tree : FileTree} {definedBy : LevelId}
    {className : String} {mark other : Annotation} {next : Marker → Logged α}
    (sameType : mark.typeName = other.typeName)
    (agree : ∀ type, (context.loadFrom tree definedBy mark.typeName).outcome = .ok type →
      next ⟨className, mark, type.file.defaults⟩ = next ⟨className, other, type.file.defaults⟩) :
    (view context tree definedBy className mark >>= next) =
      (view context tree definedBy className other >>= next) := by
  unfold view
  rw [← sameType, bind_assoc, bind_assoc]
  refine Logged.bind_congr_of_ok fun type known => ?_
  split
  · rw [pure_bind, pure_bind, agree type known]
  · rfl

end Marker

namespace Survey

variable {survey : Survey} {loaded : LoadedClass} {mark full : Annotation}

/-! ### Stating defaults -/

/-- The second annotation is the first one with an element stated that it omits. The value is the
default that the type of the annotation declares, as the level that defines the class sees it. -/
inductive StatesDefault (survey : Survey) (loaded : LoadedClass) : Annotation → Annotation → Prop
  | intro {mark : Annotation} {type : LoadedClass} {element : String} {value : ElementValue}
      (known : (survey.context.loadFrom survey.tree loaded.definedBy mark.typeName).outcome =
        .ok type)
      (omitted : mark.find? element = none)
      (declared : type.file.defaults.find? element = some value) :
      StatesDefault survey loaded mark ⟨mark.typeName, mark.elements ++ [(element, value)]⟩

/-- The second annotation is the first one with a default stated, either its own or that of an
annotation among its restrictions. -/
inductive Completes (survey : Survey) (loaded : LoadedClass) : Annotation → Annotation → Prop
  | stated {mark full : Annotation} (states : survey.StatesDefault loaded mark full) :
      Completes survey loaded mark full
  | entry {typeName : String} {front back : List (String × ElementValue)}
      {before after : List ElementValue} {mark full : Annotation}
      (states : survey.StatesDefault loaded mark full) :
      Completes survey loaded
        ⟨typeName, front ++ ("restrictions", .array (before ++ mark.toValue :: after)) :: back⟩
        ⟨typeName, front ++ ("restrictions", .array (before ++ full.toValue :: after)) :: back⟩

theorem StatesDefault.typeName_eq (states : survey.StatesDefault loaded mark full) :
    mark.typeName = full.typeName := by
  cases states
  rfl

theorem Completes.typeName_eq (completes : survey.Completes loaded mark full) :
    mark.typeName = full.typeName := by
  cases completes with
  | stated states => exact states.typeName_eq
  | entry => rfl

/-- Every element has the value that it had before its default was stated. -/
theorem StatesDefault.value?_eq (states : survey.StatesDefault loaded mark full)
    {type : LoadedClass}
    (known : (survey.context.loadFrom survey.tree loaded.definedBy mark.typeName).outcome =
      .ok type) (className element : String) :
    Marker.value? ⟨className, mark, type.file.defaults⟩ element =
      Marker.value? ⟨className, full, type.file.defaults⟩ element := by
  cases states with | @intro declaring missing value known' omitted declared
  obtain rfl : type = declaring := Except.ok.inj (known.symm.trans known')
  obtain ⟨typeName, elements⟩ := mark
  simp only [Marker.value?, Annotation.find?_middle]
  by_cases same : missing = element
  · subst same
    rw [omitted, if_pos rfl, declared]
    rfl
  · rw [if_neg same, Annotation.find?_nil, Option.or_none]

/-! ### Entries -/

theorem permissionOf_congr {first second : Marker} (alike : first.IsAlike second)
    (same : first.value? "requiredPermission" = second.value? "requiredPermission") :
    survey.permissionOf first = survey.permissionOf second := by
  unfold permissionOf
  rw [same, alike.invalid_eq]

theorem tagsOf_congr {first second : Marker} (alike : first.IsAlike second) :
    tagsOf first = tagsOf second := by
  funext items
  unfold tagsOf
  rw [alike.invalid_eq]

theorem restrictionOf_congr {first second : Marker} (alike : first.IsAlike second) :
    survey.restrictionOf loaded first = survey.restrictionOf loaded second := by
  funext entry
  unfold restrictionOf
  rw [alike.invalid_eq]

/-- The annotations of the class itself do not matter to an entry. -/
theorem restrictionOf_withAnnotations (annotations : List Annotation) :
    survey.restrictionOf (loaded.withAnnotations annotations) = survey.restrictionOf loaded := rfl

/-- What an entry that is an annotation is read as. -/
theorem restrictionOf_toValue (restricted : Marker) (mark : Annotation) :
    survey.restrictionOf loaded restricted mark.toValue =
      if mark.typeName != survey.settings.markers.restriction then
        Logged.fail (restricted.invalid (.entryOfOtherType mark.typeName))
      else
        Marker.view survey.context survey.tree loaded.definedBy loaded.name mark >>=
          fun restriction => do
            let explanation ← restriction.text? "explanation"
            return (← survey.permissionOf restriction, explanation.getD "") := by
  rw [restrictionOf]
  dsimp only [ElementValue.nested?, Annotation.toValue]
  split <;> rfl

/-- An entry is read as before if one of its defaults is stated. -/
theorem restrictionOf_toValue_eq (states : survey.StatesDefault loaded mark full)
    (restricted : Marker) :
    survey.restrictionOf loaded restricted mark.toValue =
      survey.restrictionOf loaded restricted full.toValue := by
  rw [restrictionOf_toValue, restrictionOf_toValue, ← states.typeName_eq]
  refine ite_congr rfl (fun _ => rfl) fun _ => ?_
  refine Marker.view_bind_eq states.typeName_eq fun type known => ?_
  have alike : Marker.IsAlike ⟨loaded.name, mark, type.file.defaults⟩
      ⟨loaded.name, full, type.file.defaults⟩ := ⟨rfl, states.typeName_eq⟩
  rw [alike.text?_eq (states.value?_eq known _ _),
    permissionOf_congr alike (states.value?_eq known _ _)]

/-! ### Markers that are read alike -/

/-- Two markers of one type on one class whose elements have the same values, but for entries of
the restrictions that come to the same. -/
structure ReadsAlike (survey : Survey) (loaded : LoadedClass) (first second : Marker) : Prop
    extends first.IsAlike second where
  value : ∀ element, element ≠ "restrictions" → first.value? element = second.value? element
  entries : first.value? "restrictions" = second.value? "restrictions" ∨
    ∃ entries others, first.value? "restrictions" = some (.array entries) ∧
      second.value? "restrictions" = some (.array others) ∧
      ∀ restricted, entries.mapM (survey.restrictionOf loaded restricted) =
        others.mapM (survey.restrictionOf loaded restricted)

/-- A marker is read as before if a default is stated. -/
theorem readsAlike_of_completes (completes : survey.Completes loaded mark full)
    {type : LoadedClass}
    (known : (survey.context.loadFrom survey.tree loaded.definedBy mark.typeName).outcome =
      .ok type) :
    survey.ReadsAlike loaded ⟨loaded.name, mark, type.file.defaults⟩
      ⟨loaded.name, full, type.file.defaults⟩ := by
  cases completes with
  | stated states =>
    exact {
      className := rfl
      typeName := states.typeName_eq
      value := fun element _ => states.value?_eq known _ element
      entries := .inl (states.value?_eq known _ _) }
  | @entry typeName front back before after mark full states =>
    refine { className := rfl, typeName := rfl, value := ?value, entries := ?entries }
    case value =>
      intro element other
      simp only [Marker.value?, Annotation.find?_middle, other.symm, if_false]
    case entries =>
      simp only [Marker.value?, Annotation.find?_middle, if_true]
      cases Annotation.find? ⟨typeName, front⟩ "restrictions" with
      | some value => exact .inl rfl
      | none =>
        refine .inr ⟨_, _, rfl, rfl, fun restricted => ?_⟩
        rw [List.mapM_append, List.mapM_append, List.mapM_cons, List.mapM_cons,
          restrictionOf_toValue_eq states]

/-! ### The class -/

section Completed

variable {before after : List Annotation}
  (uses : loaded.file.annotations = before ++ mark :: after)
  (completes : survey.Completes loaded mark full)
include uses completes

/-- Whatever is made of a marker is made of the completed one, if it is made of all markers that
are read alike. -/
theorem marker?_bind_eq {α : Type} (typeName : String) {next : Option Marker → Logged α}
    (agree : ∀ first second, survey.ReadsAlike loaded first second →
      next (some first) = next (some second)) :
    (survey.marker? (loaded.withAnnotations (before ++ full :: after)) typeName >>= next) =
      (survey.marker? loaded typeName >>= next) := by
  rw [marker?, marker?, Marker.find?, Marker.find?]
  rcases LoadedClass.annotation?_withAnnotations uses completes.typeName_eq typeName with
    same | ⟨bare, stated⟩
  · rw [same]
    rfl
  · rw [bare, stated]
    dsimp only
    rw [bind_assoc, bind_assoc]
    symm
    refine Marker.view_bind_eq completes.typeName_eq fun type known => ?_
    rw [pure_bind, pure_bind]
    exact agree _ _ (readsAlike_of_completes completes known)

theorem description_withAnnotations :
    survey.description (loaded.withAnnotations (before ++ full :: after)) =
      survey.description loaded := by
  refine marker?_bind_eq uses completes _ fun first second alike => ?_
  dsimp only
  rw [alike.text?_eq (alike.value _ (by decide))]

theorem tags_withAnnotations :
    survey.tags (loaded.withAnnotations (before ++ full :: after)) = survey.tags loaded := by
  refine marker?_bind_eq uses completes _ fun first second alike => ?_
  dsimp only
  rw [alike.items_eq (alike.value _ (by decide)), tagsOf_congr alike.toIsAlike]

theorem restrictions_withAnnotations :
    survey.restrictions (loaded.withAnnotations (before ++ full :: after)) =
      survey.restrictions loaded := by
  refine marker?_bind_eq uses completes _ fun first second alike => ?_
  have general : first.text? "value" = second.text? "value" :=
    alike.text?_eq (alike.value _ (by decide))
  have reader : survey.restrictionOf loaded first = survey.restrictionOf loaded second :=
    restrictionOf_congr alike.toIsAlike
  dsimp only
  rw [general, restrictionOf_withAnnotations, reader]
  rcases alike.entries with same | ⟨entries, others, listed, completed, each⟩
  · rw [alike.items_eq same]
  · have items : first.items "restrictions" = .ok entries := by rw [Marker.items, listed]
    have completedItems : second.items "restrictions" = .ok others := by
      rw [Marker.items, completed]
    rw [items, completedItems]
    refine bind_congr fun general => ?_
    show (entries.mapM _ >>= _ : Logged _) = others.mapM _ >>= _
    rw [each]

/-- **Omitting an element is stating its default.** For every survey, class and type: an annotation
of the class, or one that it nests among its restrictions, may as well state the default of an
element that it omits. The class is then described as before, or refused with the same error. -/
theorem extract_eq_of_completes (extensionType : ExtensionType) :
    survey.extract (loaded.withAnnotations (before ++ full :: after)) extensionType =
      survey.extract loaded extensionType := by
  unfold extract
  rw [description_withAnnotations uses completes, tags_withAnnotations uses completes,
    restrictions_withAnnotations uses completes]
  rfl

end Completed

/-- The class file of an annotation type `E` with a default for its explanation. -/
def explainingClass : Bytes :=
  ClassFile.Layout.bytes {
    minorVersion := 0, majorVersion := 52
    pool := [.text "E", .classRef 1, .text "explanation", .text "AnnotationDefault", .text "x"]
    accessFlags := ClassFile.annotationFlag, name := 2, superName := 0, interfaces := []
    fields := [], methods := [⟨0x401, 3, 0, [.known 4 (.scalar .string 5)]⟩], attributes := [] }

/-- A level with the annotation type. Below it, a level has another `E` without any default. -/
def explainingSurvey : Survey where
  context := .child restrictedSurvey.context ⟨⟨0, 1⟩, none, ∅, [.directory ⟨"/inner"⟩]⟩
  tree := {
    entries := .ofList [(["lib"], .directory), (["lib", "D.class"], .file bareMarkerClass),
      (["lib", "E.class"], .file explainingClass), (["inner"], .directory),
      (["inner", "E.class"], .file restrictionClass)]
    workingDirectory := [] }
  settings := entriesSurvey.settings

/-- A marker with a restriction that explains itself by default. -/
def unexplainedMark : Annotation :=
  ⟨"D", [("restrictions", .array [.nested "E" [("requiredPermission", .string "p")]])]⟩

/-- The marker with the explanation stated. -/
def explainedMark : Annotation := ⟨"D", [("restrictions", .array [explainedEntry "p" "x"])]⟩

/-- A class of the upper level with the marker. -/
def unexplainedClass : LoadedClass := repeatedClass.withAnnotations [unexplainedMark]

/-- The definition of the class, with the default. -/
def explainedDefinition : Definition :=
  ⟨.processor, "A", none, ∅, some ⟨some "", .ofList [⟨"p", "x"⟩]⟩, ∅⟩

/-- A restriction has its default explanation, be it stated or not. -/
theorem extract_eq_of_completes_entry :
    unexplainedClass.file.annotations = [] ++ unexplainedMark :: [] ∧
    explainingSurvey.Completes unexplainedClass unexplainedMark explainedMark ∧
    (explainingSurvey.extract unexplainedClass .processor).outcome = .ok explainedDefinition ∧
    explainingSurvey.extract (unexplainedClass.withAnnotations [explainedMark]) .processor =
      explainingSurvey.extract unexplainedClass .processor := by
  let entry : Annotation := ⟨"E", [("requiredPermission", .string "p")]⟩
  have viewed : ((Marker.view explainingSurvey.context explainingSurvey.tree
      unexplainedClass.definedBy unexplainedClass.name entry >>= fun marker =>
        marker.text? "explanation") : Logged _).outcome = .ok (some "x") :=
    Outcome.eq_ok_of_toOption (by decide +kernel)
  rw [Logged.outcome_bind, Outcome.bind_eq_ok_iff] at viewed
  obtain ⟨marker, viewed, explained⟩ := viewed
  have elementIs : explainingSurvey.ElementIs unexplainedClass entry "explanation"
      (marker.value? "explanation") := elementIs_of_view viewed "explanation"
  obtain ⟨type, known, declared⟩ := elementIs
  have states : explainingSurvey.StatesDefault unexplainedClass entry
      ⟨"E", entry.elements ++ [("explanation", .string "x")]⟩ :=
    .intro known rfl (declared.trans (Marker.text?_eq_ok_iff.mp explained))
  have uses : unexplainedClass.file.annotations = [] ++ unexplainedMark :: [] := rfl
  have completes : explainingSurvey.Completes unexplainedClass unexplainedMark explainedMark :=
    @Completes.entry _ _ "D" [] [] [] [] _ _ states
  exact ⟨uses, completes, Outcome.eq_ok_of_toOption (by decide +kernel),
    extract_eq_of_completes uses completes .processor⟩

end Survey

end ExtensionCatalog
