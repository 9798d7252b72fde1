/-
**Artifact coordinates.**

A coordinate names an artifact by group, artifact id, version, kind and an optional classifier. It
is written `group:artifact:kind[:classifier]:version`; a kind that is left out is `jar`.

* `toString`, `parse?`: the written form and its reading;
* the instances of `TransOrd` and `LawfulEqOrd`: coordinates are ordered field by field, no
  classifier before any.
-/

import ExtensionCatalog.Text.Blank
import ExtensionCatalog.Text.Split

namespace ExtensionCatalog

open Std

/-- The identity of an artifact in a repository. -/
structure Coordinate where
  group : String
  artifact : String
  version : String
  kind : String
  classifier : Option String
deriving DecidableEq, Inhabited

namespace Coordinate

/-- The kind of an artifact whose coordinate states none. -/
def defaultKind : String := "jar"

/-- A coordinate of the default kind without classifier. -/
def jar (group artifact version : String) : Coordinate :=
  ⟨group, artifact, version, defaultKind, none⟩

/-- Field by field, no classifier before any. -/
def compareFields : Coordinate → Coordinate → Ordering :=
  compareLex (compareOn group) <| compareLex (compareOn artifact) <|
    compareLex (compareOn version) <| compareLex (compareOn kind) (compareOn classifier)

instance : Ord Coordinate := ⟨compareFields⟩

instance : TransCmp compareFields := by
  unfold compareFields
  infer_instance

instance : TransOrd Coordinate := inferInstanceAs (TransCmp compareFields)

instance : LawfulEqOrd Coordinate where
  eq_of_compare {first second} equal := by
    have equal : compareFields first second = .eq := equal
    simp only [compareFields, compareLex_eq_eq, compareOn, Std.compare_eq_iff_eq] at equal
    obtain ⟨group, artifact, version, kind, classifier⟩ := equal
    cases first
    cases second
    simp_all

/-- Whether the kind is `kind`, the case of ASCII letters ignored. -/
def isKind (coordinate : Coordinate) (kind : String) : Bool :=
  Text.asciiLowercase coordinate.kind == Text.asciiLowercase kind

/-- Whether the coordinate names this artifact of this group, in any version. -/
def isArtifact (coordinate : Coordinate) (group artifact : String) : Bool :=
  coordinate.group == group && coordinate.artifact == artifact

/-- The parts of the written form, in order. -/
def parts (coordinate : Coordinate) : List String :=
  [coordinate.group, coordinate.artifact, coordinate.kind] ++ coordinate.classifier.toList ++
    [coordinate.version]

instance : ToString Coordinate := ⟨fun coordinate => String.intercalate ":" coordinate.parts⟩

/-- The coordinate with the parts of a written form. -/
def ofParts? : List String → Option Coordinate
  | [group, artifact, version] => some (jar group artifact version)
  | [group, artifact, kind, version] => some ⟨group, artifact, version, kind, none⟩
  | [group, artifact, kind, classifier, version] =>
    some ⟨group, artifact, version, kind, some classifier⟩
  | _ => none

/-- Read a written coordinate: white space around it is ignored, and no part may be empty. -/
def parse? (text : String) : Option Coordinate :=
  let parts := Text.splitText ':' (Text.trimmed text)
  if parts.any (·.isEmpty) then none else ofParts? parts

end Coordinate

end ExtensionCatalog
