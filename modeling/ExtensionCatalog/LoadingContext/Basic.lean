/-
**Loading contexts: levels of isolation.**

A level exposes the files of some artifacts. A loading context is a level below a chain of others:
the root of the chain is shared by all modules, and every other level belongs to one module.

* `ancestry`: the context and those above it, the nearest first;
* `levels`, `depth`, `foundation`, `exposes`, `at?`: what the chain consists of;
* `levels_child`, `exposes_child`: its structure.
-/

import ExtensionCatalog.ClassPath

namespace ExtensionCatalog

/-- The identity of a level: the chain it was made for and its place there, counted from the
root. -/
structure LevelId where
  chain : Nat
  place : Nat
deriving DecidableEq, Inhabited

/-- One level of isolation. -/
structure Level where
  id : LevelId
  /-- The module that the level was made for; the shared level has none. -/
  module : Option Coordinate
  /-- The artifacts that this level alone exposes. -/
  artifacts : SortedMap Coordinate FilePath
  entries : List ClassPathEntry

/-- The level that exposes some artifacts, with the entries that stand at their paths. -/
def Level.ofArtifacts (tree : FileTree) (id : LevelId) (module : Option Coordinate)
    (artifacts : SortedMap Coordinate FilePath) : Level :=
  ⟨id, module, artifacts, artifacts.values.map (ClassPathEntry.ofPath tree)⟩

/-- A level and the chain above it. -/
inductive LoadingContext where
  | root (level : Level)
  | child (parent : LoadingContext) (level : Level)

namespace LoadingContext

/-- The context's own level. -/
def level : LoadingContext → Level
  | root level => level
  | child _ level => level

def parent? : LoadingContext → Option LoadingContext
  | root _ => none
  | child parent _ => some parent

/-- The context and those above it, the nearest first. -/
def ancestry : LoadingContext → List LoadingContext
  | root level => [root level]
  | child parent level => child parent level :: parent.ancestry

/-- The levels, the context's own one first. -/
def levels (context : LoadingContext) : List Level := context.ancestry.map level

/-- The number of levels. -/
def depth (context : LoadingContext) : Nat := context.ancestry.length

/-- The level at the root of the chain. -/
def foundation : LoadingContext → Level
  | root level => level
  | child parent _ => parent.foundation

/-- Whether any level exposes the artifact. -/
def exposes (context : LoadingContext) (coordinate : Coordinate) : Bool :=
  context.levels.any (·.artifacts.contains coordinate)

/-- The context of the level with an identity. -/
def at? (context : LoadingContext) (id : LevelId) : Option LoadingContext :=
  context.ancestry.find? (·.level.id == id)

/-- The context some levels further up. -/
def above? (context : LoadingContext) (count : Nat) : Option LoadingContext :=
  context.ancestry[count]?

/-- A context without parent. -/
def foundationOf (tree : FileTree) (chain : Nat) (module : Option Coordinate)
    (artifacts : SortedMap Coordinate FilePath) : LoadingContext :=
  root (.ofArtifacts tree ⟨chain, 0⟩ module artifacts)

/-- A context below this one, in the next place of the chain. -/
def extend (parent : LoadingContext) (tree : FileTree) (module : Option Coordinate)
    (artifacts : SortedMap Coordinate FilePath) : LoadingContext :=
  child parent
    (.ofArtifacts tree ⟨parent.level.id.chain, parent.level.id.place + 1⟩ module artifacts)

@[simp] theorem levels_root (level : Level) : (root level).levels = [level] := rfl

@[simp] theorem levels_child (parent : LoadingContext) (level : Level) :
    (child parent level).levels = level :: parent.levels := rfl

@[simp] theorem exposes_child (parent : LoadingContext) (level : Level) (coordinate : Coordinate) :
    (child parent level).exposes coordinate =
      (level.artifacts.contains coordinate || parent.exposes coordinate) := by
  simp [exposes]

theorem length_levels (context : LoadingContext) : context.levels.length = context.depth :=
  List.length_map ..

/-- A context is the first of its ancestry. -/
theorem head?_ancestry (context : LoadingContext) : context.ancestry.head? = some context := by
  cases context <;> rfl

end LoadingContext

end ExtensionCatalog
