/-
**What can go wrong when extensions are discovered.**

Classes and their markers can be bad in a few ways, and none of them is a missing contract. A
discovery looks for two contracts at most, that of its type and that of controller services, and for
the second one only if it is the first. So a contract is missed before any class is looked at, or
not at all.

* `Error.HasCause`: an error and what it wraps;
* `Error.IsAboutClasses`: what can be wrong with classes;
* `Logged.FailsOnly`: actions that fail in some ways only, and what is made of such actions;
* `LoadingContext.failsOnly_load`, `failsOnly_isAssignable`: classes are loaded and compared;
* `Survey.failsOnly_extract`: a class is described;
* `Survey.failsOnly_discover`: **what a discovery fails with if its type has a contract**.
-/

import ExtensionCatalog.Discovery
import ExtensionCatalog.Proofs.Outcome

namespace ExtensionCatalog

namespace Error

/-- Whether an error is caused by another one: it is that error, or wraps one that is caused by
it. -/
inductive HasCause : Error → Error → Prop
  | itself (error : Error) : HasCause error error
  | wrapped {extensionType : ExtensionType} {className : String} {source cause : Error}
      (inner : HasCause source cause) :
      HasCause (.extensionDefinition extensionType className source) cause

/-- A missing contract is at the bottom of an error exactly if some type has none. -/
theorem causedByMissingContract_iff {error : Error} :
    error.causedByMissingContract = true ↔
      ∃ extensionType, error.HasCause (.unmappedExtensionType extensionType) := by
  constructor
  · intro missing
    induction error with
    | unmappedExtensionType extensionType => exact ⟨extensionType, .itself _⟩
    | extensionDefinition extensionType className source hypothesis =>
      obtain ⟨other, inner⟩ := hypothesis missing
      exact ⟨other, .wrapped inner⟩
    | _ => cases missing
  · rintro ⟨extensionType, caused⟩
    generalize target : Error.unmappedExtensionType extensionType = cause at caused
    induction caused with
    | itself error =>
      subst target
      rfl
    | wrapped inner hypothesis => exact hypothesis target

/-- What can be wrong with classes: with what is read, with the files of classes, or with the
markers on them. -/
inductive IsAboutClasses : Error → Prop
  | file : IsAboutClasses .file
  | archive : IsAboutClasses .archive
  | classNotFound (name : String) : IsAboutClasses (.classNotFound name)
  | invalidClassFile (className : String) (fault : ClassFileFault) :
      IsAboutClasses (.invalidClassFile className fault)
  | invalidMarker (marker className : String) (fault : MarkerFault) :
      IsAboutClasses (.invalidMarker marker className fault)

/-- What can go wrong for a type that has a contract: a resource is unreadable, or a class cannot
be described. -/
inductive IsAboutRegistered (extensionType : ExtensionType) : Error → Prop
  | resource {error : Error} (classes : IsAboutClasses error) :
      IsAboutRegistered extensionType error
  | definition {source : Error} (className : String) (classes : IsAboutClasses source) :
      IsAboutRegistered extensionType (.extensionDefinition extensionType className source)

theorem IsAboutClasses.causedByMissingContract_eq_false {error : Error}
    (classes : error.IsAboutClasses) : error.causedByMissingContract = false := by
  cases classes <;> rfl

theorem IsAboutRegistered.causedByMissingContract_eq_false {extensionType : ExtensionType}
    {error : Error} (registered : error.IsAboutRegistered extensionType) :
    error.causedByMissingContract = false := by
  cases registered with
  | resource classes => exact classes.causedByMissingContract_eq_false
  | definition className classes => exact classes.causedByMissingContract_eq_false

end Error

/-! ### Actions that fail in some ways only -/

/-- Every error of an action is of a kind. -/
def Logged.FailsOnly {α : Type} (action : Logged α) (kind : Error → Prop) : Prop :=
  ∀ error, action.outcome = .error error → kind error

namespace Logged.FailsOnly

variable {α β : Type} {kind wider : Error → Prop} {action : Logged α} {next : α → Logged β}

theorem pure (value : α) : FailsOnly (pure value) kind := fun _ equal => by cases equal

theorem fail {error : Error} (here : kind error) : FailsOnly (fail error : Logged α) kind := by
  intro other equal
  cases equal
  exact here

theorem note (level : LogLevel) (message : String) : FailsOnly (note level message) kind :=
  fun _ equal => by cases equal

theorem attempt (action : Logged α) : FailsOnly action.attempt kind :=
  fun _ equal => by cases equal

theorem mono (only : action.FailsOnly kind) (each : ∀ error, kind error → wider error) :
    action.FailsOnly wider :=
  fun error failed => each error (only error failed)

/-- Two actions in a row. -/
theorem bind (first : action.FailsOnly kind)
    (later : ∀ value, action.outcome = .ok value → (next value).FailsOnly kind) :
    (action >>= next).FailsOnly kind := by
  intro error failed
  rw [outcome_bind, Outcome.bind_eq_error_iff] at failed
  rcases failed with here | ⟨value, yields, there⟩
  · exact first error here
  · exact later value yields error there

theorem map (only : action.FailsOnly kind) (change : α → β) :
    FailsOnly (do return change (← action)) kind :=
  only.bind fun value _ => pure (change value)

/-- Actions for the items of a list. -/
theorem mapM {items : List α} {action : α → Logged β}
    (each : ∀ item, (action item).FailsOnly kind) : (items.mapM action).FailsOnly kind := by
  intro error failed
  rw [outcome_mapM, Outcome.mapM_eq_error_iff] at failed
  obtain ⟨-, item, -, -, -, here⟩ := failed
  exact each item error here

/-- Errors that are wrapped. -/
theorem mapError {change : Error → Error} (only : action.FailsOnly kind)
    (each : ∀ error, kind error → wider (change error)) :
    (action.mapError change).FailsOnly wider := by
  intro error failed
  rw [outcome_mapError, Outcome.mapError_eq_error_iff] at failed
  obtain ⟨cause, here, rfl⟩ := failed
  exact each cause (only cause here)

end Logged.FailsOnly

open Logged Error

/-! ### Classes are read -/

theorem ClassPathEntry.failsOnly_read (entry : ClassPathEntry) (tree : FileTree) (name : String) :
    (entry.read tree name).FailsOnly IsAboutClasses := by
  cases entry with
  | directory root => exact .pure _
  | archive path =>
    rw [read]
    split
    · unfold readArchive
      split
      · exact .pure _
      · exact .bind (.note _ _) fun _ _ => .pure _
      · exact .fail .archive
      · exact .fail .archive
      · exact .fail .file
    · exact .fail .archive
    · exact .fail .file

namespace LoadingContext

variable (context : LoadingContext) (tree : FileTree)

theorem failsOnly_readSource (name : String) (source : Source) :
    (readSource tree name source).FailsOnly IsAboutClasses :=
  (source.entry.failsOnly_read tree name).map _

theorem failsOnly_findResources (name : String) :
    (context.findResources tree name).FailsOnly IsAboutClasses :=
  .map (.mapM (failsOnly_readSource tree name)) _

theorem failsOnly_firstResource (name : String) (sources : List Source) :
    (firstResource tree name sources).FailsOnly IsAboutClasses := by
  induction sources with
  | nil => exact .pure _
  | cons source rest hypothesis =>
    refine .bind (failsOnly_readSource tree name source) fun found _ => ?_
    cases found with
    | some resource => exact .pure _
    | none => exact hypothesis

theorem failsOnly_define (name : String) (resource : Resource) :
    (ofExcept (define name resource)).FailsOnly IsAboutClasses := by
  intro error failed
  rw [outcome_ofExcept, define, Outcome.bind_eq_error_iff] at failed
  rcases failed with unread | ⟨file, -, other⟩
  · obtain ⟨fault, -, rfl⟩ := Outcome.mapError_eq_error_iff.mp unread
    exact .invalidClassFile name fault
  · split at other
    · cases other
    · cases other
      exact .invalidClassFile name _

theorem failsOnly_load (name : String) :
    (context.load tree name).FailsOnly IsAboutClasses := by
  refine .bind (failsOnly_firstResource tree _ _) fun found _ => ?_
  cases found with
  | none => exact .fail (.classNotFound name)
  | some resource => exact failsOnly_define name resource

theorem failsOnly_loadFrom (level : LevelId) (name : String) :
    (context.loadFrom tree level name).FailsOnly IsAboutClasses :=
  failsOnly_load _ tree name

theorem failsOnly_loadIfPresent (level : LevelId) (name : String) :
    (context.loadIfPresent tree level name).FailsOnly IsAboutClasses := by
  refine .bind (.attempt _) fun outcome attempted => ?_
  cases attempted
  split
  · exact .pure _
  · exact .pure _
  · next error _ failed => exact .fail (context.failsOnly_loadFrom tree level name error failed)

theorem failsOnly_supertypes (loaded : LoadedClass) :
    (context.supertypes tree loaded).FailsOnly IsAboutClasses :=
  .map (.mapM (context.failsOnly_loadIfPresent tree loaded.definedBy)) _

theorem failsOnly_search (target : LevelId × String) (waiting : List LoadedClass)
    (unseen : List (LevelId × String)) :
    (context.search tree target waiting unseen).FailsOnly IsAboutClasses := by
  induction waiting, unseen using search.induct target with
  | case1 unseen =>
    rw [search]
    exact .pure _
  | case2 current waiting unseen met =>
    rw [search, if_pos met]
    exact .pure _
  | case3 current waiting unseen other fresh hypothesis =>
    rw [search, if_neg other, if_pos fresh]
    exact .bind (context.failsOnly_supertypes tree current) fun found _ => hypothesis found
  | case4 current waiting unseen other known hypothesis =>
    rw [search, if_neg other, if_neg known]
    exact hypothesis

theorem failsOnly_isAssignable (target candidate : LoadedClass) :
    (context.isAssignable tree target candidate).FailsOnly IsAboutClasses :=
  context.failsOnly_search tree _ _ _

end LoadingContext

/-! ### Classes are described -/

namespace Marker

theorem failsOnly_view (context : LoadingContext) (tree : FileTree) (definedBy : LevelId)
    (className : String) (mark : Annotation) :
    (view context tree definedBy className mark).FailsOnly IsAboutClasses := by
  refine .bind (context.failsOnly_loadFrom tree definedBy _) fun type _ => ?_
  split
  · exact .pure _
  · exact .fail (.invalidMarker ..)

theorem failsOnly_text? (marker : Marker) (element : String) :
    (ofExcept (marker.text? element)).FailsOnly IsAboutClasses := by
  unfold text?
  split
  · exact .pure _
  · exact .pure _
  · exact .fail (.invalidMarker ..)

theorem failsOnly_items (marker : Marker) (element : String) :
    (ofExcept (marker.items element)).FailsOnly IsAboutClasses := by
  unfold items
  split
  · exact .pure _
  · exact .pure _
  · exact .fail (.invalidMarker ..)

end Marker

namespace Survey

variable (survey : Survey) (loaded : LoadedClass)

theorem failsOnly_marker? (typeName : String) :
    (survey.marker? loaded typeName).FailsOnly IsAboutClasses := by
  unfold marker? Marker.find?
  split
  · exact .map (Marker.failsOnly_view _ _ _ _ _) _
  · exact .pure _

theorem failsOnly_description : (survey.description loaded).FailsOnly IsAboutClasses := by
  refine .bind (survey.failsOnly_marker? loaded _) fun marker _ => ?_
  cases marker with
  | none => exact .pure _
  | some marker => exact marker.failsOnly_text? "value"

theorem failsOnly_tagsOf (marker : Marker) (items : List ElementValue) :
    (ofExcept (tagsOf marker items)).FailsOnly IsAboutClasses := by
  intro error failed
  rw [outcome_ofExcept, tagsOf, Outcome.mapM_eq_error_iff] at failed
  obtain ⟨-, item, -, -, -, here⟩ := failed
  split at here
  · cases here
  · cases here
    exact .invalidMarker ..

theorem failsOnly_tags : (survey.tags loaded).FailsOnly IsAboutClasses := by
  refine .bind (survey.failsOnly_marker? loaded _) fun marker _ => ?_
  cases marker with
  | none => exact .pure _
  | some marker =>
    exact .bind (marker.failsOnly_items "value") fun items _ =>
      .map (failsOnly_tagsOf marker items) _

theorem failsOnly_permissionOf (restriction : Marker) :
    (ofExcept (survey.permissionOf restriction)).FailsOnly IsAboutClasses := by
  unfold permissionOf
  split
  · exact .pure _
  · exact .pure _
  · exact .fail (.invalidMarker ..)
  · exact .fail (.invalidMarker ..)

theorem failsOnly_restrictionOf (restricted : Marker) (entry : ElementValue) :
    (survey.restrictionOf loaded restricted entry).FailsOnly IsAboutClasses := by
  unfold restrictionOf
  split
  · exact .fail (.invalidMarker ..)
  · next mark _ =>
    have rest : FailsOnly (do
        let restriction ← Marker.view survey.context survey.tree loaded.definedBy loaded.name mark
        let explanation ← restriction.text? "explanation"
        return (← survey.permissionOf restriction, explanation.getD "")) IsAboutClasses :=
      .bind (Marker.failsOnly_view _ _ _ _ _) fun restriction _ =>
        .bind (restriction.failsOnly_text? "explanation") fun explanation _ =>
          .map (survey.failsOnly_permissionOf restriction) _
    split
    · exact .bind (.fail (.invalidMarker ..)) fun _ _ => rest
    · exact rest

theorem failsOnly_restrictions : (survey.restrictions loaded).FailsOnly IsAboutClasses := by
  refine .bind (survey.failsOnly_marker? loaded _) fun marker _ => ?_
  cases marker with
  | none => exact .pure _
  | some restricted =>
    exact .bind (restricted.failsOnly_text? "value") fun general _ =>
      .bind (restricted.failsOnly_items "restrictions") fun entries _ =>
        .map (.mapM (survey.failsOnly_restrictionOf loaded restricted)) _

theorem failsOnly_serviceApi? (contract : LoadedClass) (interface : String) :
    (survey.serviceApi? contract loaded interface).FailsOnly IsAboutClasses := by
  refine .bind (survey.context.failsOnly_loadIfPresent survey.tree loaded.definedBy interface)
    fun found _ => ?_
  cases found with
  | none => exact .pure _
  | some type =>
    refine .bind (survey.context.failsOnly_isAssignable survey.tree contract type)
      fun assignable _ => ?_
    cases assignable <;> exact .pure _

section Contract

variable {survey} {extensionType : ExtensionType} {interface : String}
  (mapped : survey.settings.contract? extensionType = some interface)

include mapped

/-- The contract of controller services is looked up once more for a class that is one. -/
theorem failsOnly_extract : (survey.extract loaded extensionType).FailsOnly IsAboutClasses := by
  refine .bind (survey.failsOnly_description loaded) fun description _ =>
    .bind (survey.failsOnly_tags loaded) fun tags _ =>
    .bind (survey.failsOnly_restrictions loaded) fun restrictions _ => ?_
  split
  · next service =>
    refine .map ?_ _
    rw [service] at mapped
    unfold serviceApis
    rw [mapped]
    exact .bind (survey.context.failsOnly_load survey.tree interface) fun contract _ =>
      .map (.mapM (survey.failsOnly_serviceApi? loaded contract)) _
  · exact .map (.pure _) _

theorem failsOnly_describe (className : String) :
    (survey.describe extensionType className).FailsOnly (IsAboutRegistered extensionType) := by
  have extracted : FailsOnly (do
      survey.extract (← survey.context.load survey.tree className) extensionType)
      IsAboutClasses :=
    .bind (survey.context.failsOnly_load survey.tree className) fun loaded _ =>
      failsOnly_extract loaded mapped
  exact extracted.mapError fun error classes => .definition className classes

/-- **What a discovery fails with if its type has a contract** is about registrations and
classes. -/
theorem failsOnly_discover :
    (survey.discover extensionType).FailsOnly (IsAboutRegistered extensionType) := by
  have named : (survey.classNames extensionType).FailsOnly IsAboutClasses := by
    unfold classNames
    rw [mapped]
    exact .map (survey.context.failsOnly_findResources survey.tree _) _
  refine .bind (named.mono fun error classes => .resource classes) fun names _ =>
    .bind (.mapM (failsOnly_describe mapped)) fun found _ => ?_
  split
  · exact .bind (.note _ _) fun _ _ => .pure _
  · exact .pure _

end Contract

end Survey

end ExtensionCatalog
