/-
**Who is asked for the dependencies and the files of artifacts.**

* `DependencyProvider`: answers for finitely many artifacts which others they depend on;
* `ArtifactResolver`: finds the file of an artifact.
-/

import ExtensionCatalog.DependencySet
import ExtensionCatalog.Error

namespace ExtensionCatalog

/-- Answers for finitely many artifacts which others they depend on. -/
structure DependencyProvider where
  /-- All artifacts that an artifact depends on, perhaps itself among them. -/
  dependencies : Coordinate → Except Error DependencySet
  /-- The artifacts that an answer can be had for. -/
  listed : List Coordinate
  mem_listed : ∀ {coordinate : Coordinate} {set : DependencySet},
    dependencies coordinate = .ok set → coordinate ∈ listed

/-- Finds the file of an artifact; the file need not exist. -/
abbrev ArtifactResolver := Coordinate → Option FilePath

end ExtensionCatalog
