/-
**Markers: annotations together with the defaults of their types.**

An element that an annotation leaves out has the default that the annotation type declares. The
type is the one that the annotated class sees.

* `Marker.value?`: the value of an element;
* `Marker.text?`, `Marker.items`: the value of an element that has to be of one kind;
* `Marker.view`: the marker of an annotation.
-/

import ExtensionCatalog.LoadingContext.Load

namespace ExtensionCatalog

/-- An annotation on a class, and the defaults of its type. -/
structure Marker where
  className : String
  mark : Annotation
  defaults : SortedMap String ElementValue

namespace Marker

/-- The error of a value of the wrong shape. -/
def invalid (marker : Marker) (fault : MarkerFault) : Error :=
  .invalidMarker marker.mark.typeName marker.className fault

/-- The value of an element: the stated one, or else the default. -/
def value? (marker : Marker) (element : String) : Option ElementValue :=
  (marker.mark.find? element).or (marker.defaults.find? element)

/-- The text of an element, if it has a value. -/
def text? (marker : Marker) (element : String) : Except Error (Option String) :=
  match marker.value? element with
  | none => .ok none
  | some (.string value) => .ok (some value)
  | some other => .error (marker.invalid (.expectedString element other.kind))

/-- The items of an element; none if it has no value. -/
def items (marker : Marker) (element : String) : Except Error (List ElementValue) :=
  match marker.value? element with
  | none => .ok []
  | some (.array values) => .ok values
  | some other => .error (marker.invalid (.expectedArray element other.kind))

/-- The marker of an annotation on a class that a level defines. -/
def view (context : LoadingContext) (tree : FileTree) (definedBy : LevelId) (className : String)
    (mark : Annotation) : Logged Marker := do
  let type ← context.loadFrom tree definedBy mark.typeName
  if type.file.isAnnotation then return ⟨className, mark, type.file.defaults⟩
  else .fail (.invalidMarker mark.typeName className .notAnnotationType)

/-- The marker of a type on a class, if the class carries one. -/
def find? (context : LoadingContext) (tree : FileTree) (loaded : LoadedClass) (typeName : String) :
    Logged (Option Marker) :=
  match loaded.file.annotation? typeName with
  | some mark => do
    return some (← view context tree loaded.definedBy loaded.name mark)
  | none => return none

end Marker

end ExtensionCatalog
