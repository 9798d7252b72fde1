/-
**The local repository: a file for every artifact.**

An artifact is stored below the root in directories named for the parts of its group, its artifact
id and its version; its file name states artifact id, version, classifier and kind.

* `LocalRepository.pathOf`: where an artifact is stored, whether or not it is there;
* `LocalRepository.resolve`: the path of an artifact that is there.
-/

import ExtensionCatalog.DependencyProvider
import ExtensionCatalog.FileTree

namespace ExtensionCatalog

/-- A directory that holds artifacts. -/
structure LocalRepository where
  root : FilePath
deriving DecidableEq

namespace LocalRepository

/-- The name of the file of an artifact. -/
def fileName (coordinate : Coordinate) : String :=
  String.intercalate "-" ([coordinate.artifact, coordinate.version] ++
    coordinate.classifier.toList) ++ "." ++ Text.asciiLowercase coordinate.kind

/-- The segments of the path of an artifact below the root. -/
def segments (coordinate : Coordinate) : List String :=
  Text.splitText '.' coordinate.group ++
    [coordinate.artifact, coordinate.version, fileName coordinate]

/-- Where an artifact is stored. -/
def pathOf (repository : LocalRepository) (coordinate : Coordinate) : FilePath :=
  (segments coordinate).foldl FilePath.joinText repository.root

/-- The path of an artifact that is there. -/
def resolve (repository : LocalRepository) (tree : FileTree) (coordinate : Coordinate) :
    Except Error FilePath :=
  let path := repository.pathOf coordinate
  if tree.exists? path then .ok path else .error (.unresolvableArtifact coordinate)

/-- The repository as a resolver. -/
def resolver (repository : LocalRepository) (tree : FileTree) : ArtifactResolver :=
  fun coordinate => (repository.resolve tree coordinate).toOption

end LocalRepository

end ExtensionCatalog
