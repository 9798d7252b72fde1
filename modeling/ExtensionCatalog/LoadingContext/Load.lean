/-
**Loading: resources and classes seen from a context.**

The outermost level comes first: it defines every class it holds, and its resources are listed
before those of the levels below it.

* `sources`: where a context reads from, in order;
* `findResources`: all contents of a name;
* `ClassFile.parseFrom`, `define`: the class that a content holds;
* `load`, `loadFrom`: the class of a name, as the context or as one of its levels sees it;
* `sources_child`: a context reads from its parent's sources first.
-/

import ExtensionCatalog.ClassFile.Reader
import ExtensionCatalog.LoadingContext.Basic

namespace ExtensionCatalog

/-- A class path entry and the level it belongs to. -/
structure Source where
  level : LevelId
  entry : ClassPathEntry
deriving DecidableEq

/-- A content found under a name. -/
structure Resource where
  source : Source
  content : Bytes
deriving DecidableEq

/-- The class file that bytes begin with. An error names what the bytes were taken for. -/
def ClassFile.parseFrom (origin : String) (bytes : Bytes) : Except Error ClassFile :=
  (ClassFile.parse bytes).mapError (.invalidClassFile origin)

/-- A class, and the level that defines it. -/
structure LoadedClass where
  definedBy : LevelId
  file : ClassFile
deriving Inhabited

namespace LoadedClass

def name (loaded : LoadedClass) : String := loaded.file.name

/-- What tells types apart: the defining level and the name. -/
def key (loaded : LoadedClass) : LevelId × String := (loaded.definedBy, loaded.name)

/-- Whether two classes are the same type. -/
def isSameType (first second : LoadedClass) : Bool := first.key == second.key

end LoadedClass

/-- The entries of a level, in order. -/
def Level.sources (level : Level) : List Source := level.entries.map fun entry => ⟨level.id, entry⟩

namespace LoadingContext

/-- Where a context reads from: the outermost level first, its own level last. -/
def sources (context : LoadingContext) : List Source :=
  context.levels.reverse.flatMap Level.sources

@[simp] theorem sources_root (level : Level) : (root level).sources = level.sources := by
  simp [sources]

/-- A context reads from its parent's sources first. -/
@[simp] theorem sources_child (parent : LoadingContext) (level : Level) :
    (child parent level).sources = parent.sources ++ level.sources := by
  simp [sources]

/-- What the entry of a source has under a name. -/
def readSource (tree : FileTree) (name : String) (source : Source) : Logged (Option Resource) := do
  return (← source.entry.read tree name).map fun content => ⟨source, content⟩

/-- All contents of a name, those of the outermost level first. -/
def findResources (context : LoadingContext) (tree : FileTree) (name : String) :
    Logged (List Resource) := do
  return (← context.sources.mapM (readSource tree name)).reduceOption

/-- The first content of a name in some sources; the sources behind it are not read. -/
def firstResource (tree : FileTree) (name : String) : List Source → Logged (Option Resource)
  | [] => return none
  | source :: rest => do
    match ← readSource tree name source with
    | some resource => return some resource
    | none => firstResource tree name rest

/-- The class that a resource holds, which has to be the one of a name. -/
def define (name : String) (resource : Resource) : Except Error LoadedClass := do
  let file ← ClassFile.parseFrom name resource.content
  if file.name = name then return ⟨resource.source.level, file⟩
  else throw (.invalidClassFile name (.otherClass resource.source.entry.path file.name))

/-- The class of a name; the outermost level that holds it defines it. -/
def load (context : LoadingContext) (tree : FileTree) (name : String) : Logged LoadedClass := do
  match ← firstResource tree (ClassName.resourceName name) context.sources with
  | none => .fail (.classNotFound name)
  | some resource => define name resource

/-- The class of a name as one of the levels sees it; an unknown level stands for the context. -/
def loadFrom (context : LoadingContext) (tree : FileTree) (level : LevelId) (name : String) :
    Logged LoadedClass :=
  ((context.at? level).getD context).load tree name

end LoadingContext

end ExtensionCatalog
