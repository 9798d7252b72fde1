/-
**Errors: causes and their messages.**

* `Error`: what can go wrong, one constructor for each cause;
* `Error.message`: the text shown for a cause;
* `Error.causedByMissingContract`: whether a missing contract is at the bottom of an error;
* `Coordinate.parse`: the coordinate of a text, or the error.
-/

import ExtensionCatalog.ClassFile.Fault
import ExtensionCatalog.Definition.Basic

namespace ExtensionCatalog

/-- Why the annotations of a class do not describe an extension. -/
inductive MarkerFault where
  | notAnnotationType
  | expectedString (element kind : String)
  | expectedArray (element kind : String)
  | tagNotString (kind : String)
  | plainEntry (kind : String)
  | entryOfOtherType (typeName : String)
  | permissionNotConstant (kind : String)
  | permissionMissing
deriving DecidableEq

/-- The reason that a message gives. -/
def MarkerFault.reason : MarkerFault → String
  | notAnnotationType => "marker type is not an annotation type"
  | expectedString element kind => s!"element '{element}' is a {kind}, expected a string"
  | expectedArray element kind => s!"element '{element}' is a {kind}, expected an array"
  | tagNotString kind => s!"tag is a {kind}, expected a string"
  | plainEntry kind => s!"restriction entry is a {kind}, expected an annotation"
  | entryOfOtherType typeName => s!"restriction entry has type {typeName}"
  | permissionNotConstant kind => s!"requiredPermission is a {kind}, expected an enum constant"
  | permissionMissing => "requiredPermission is missing"

/-- Why a properties document does not describe an extension. -/
inductive PropertiesFault where
  | malformedEscape (digits : String)
  | unpairedSurrogate
  | malformedKey (key : String)
  | missingField (index : Nat) (field : String)
deriving DecidableEq

/-- The reason that a message gives. -/
def PropertiesFault.reason : PropertiesFault → String
  | malformedEscape digits => s!"malformed \\u escape '\\u{digits}'"
  | unpairedSurrogate => "unpaired surrogate in \\u escape"
  | malformedKey key => s!"malformed key '{key}'"
  | missingField index field => s!"service.definition.{index}.{field} is missing"

/-- What can go wrong while contexts are built and extensions are described. -/
inductive Error where
  /-- A module depends on more than one other module. -/
  | ambiguousParentModule (module : Coordinate) (candidates : List Coordinate)
  /-- No level depends on the framework interface, named by group and artifact. -/
  | missingApiDependency (group artifact : String)
  /-- An artifact has no file and none could be found for it. -/
  | unresolvableArtifact (coordinate : Coordinate)
  /-- The dependencies of an artifact cannot be told. -/
  | dependencyGraphBuildFailed (coordinate : Coordinate) (reason : String)
  /-- No level holds the class. -/
  | classNotFound (name : String)
  | invalidClassFile (className : String) (fault : ClassFileFault)
  /-- A marker of a class has a value of the wrong shape. -/
  | invalidMarker (marker className : String) (fault : MarkerFault)
  /-- No contract is configured for an extension type. -/
  | unmappedExtensionType (extensionType : ExtensionType)
  /-- A registered class could not be described. -/
  | extensionDefinition (extensionType : ExtensionType) (className : String) (source : Error)
  | invalidCoordinate (text : String)
  | invalidLockfile (reason : String)
  | invalidProperties (fault : PropertiesFault)
  /-- A file could not be read or written. -/
  | file
  /-- An archive could not be read. -/
  | archive
  /-- A text is not a TOML document of the expected form. -/
  | toml
deriving DecidableEq

namespace Error

/-- The text shown for an error. -/
def message : Error → String
  | ambiguousParentModule module candidates =>
    s!"Module {module} depends on more than one module: {candidates}"
  | missingApiDependency group artifact =>
    s!"Could not find any dependency, provided or otherwise, on [{group}:{artifact}]"
  | unresolvableArtifact coordinate => s!"Could not resolve artifact {coordinate}"
  | dependencyGraphBuildFailed coordinate reason =>
    s!"Failed to build dependency graph for {coordinate}: {reason}"
  | classNotFound name => s!"Class not found: {name}"
  | invalidClassFile className fault => s!"Invalid class file {className}: {fault.reason}"
  | invalidMarker marker className fault =>
    s!"Invalid {marker} marker on {className}: {fault.reason}"
  | unmappedExtensionType extensionType =>
    s!"No contract interface is mapped for extension type {extensionType.name}"
  | extensionDefinition extensionType className source =>
    s!"Failed to create extension definition for {extensionType.name} {className}: {source.message}"
  | invalidCoordinate text => s!"Invalid artifact coordinate: {text}"
  | invalidLockfile reason => s!"Invalid lockfile: {reason}"
  | invalidProperties fault => s!"Invalid extension properties: {fault.reason}"
  | file => "IO error"
  | archive => "Archive error"
  | toml => "TOML error"

/-- Whether the cause at the bottom of an error is a missing contract. -/
def causedByMissingContract : Error → Bool
  | unmappedExtensionType _ => true
  | extensionDefinition _ _ source => source.causedByMissingContract
  | _ => false

end Error

/-- The coordinate of a text, or what is wrong with it. -/
def Coordinate.parse (text : String) : Except Error Coordinate :=
  match parse? text with
  | some coordinate => .ok coordinate
  | none => .error (.invalidCoordinate text)

end ExtensionCatalog
