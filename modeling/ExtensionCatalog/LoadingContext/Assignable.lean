/-
**Assignability: the supertypes of a class across levels.**

The supertypes of a class are looked up as its defining level sees them, breadth first. Supertypes
that no level holds are passed over; a supertype that cannot be loaded for another reason ends the
search, unless the type looked for was met before.

* `supertypes`: the direct supertypes of a class;
* `isAssignable`: whether a class has another one among its supertypes.
-/

import ExtensionCatalog.LoadingContext.Load

namespace ExtensionCatalog.LoadingContext

/-- The class of a name as a level sees it, if any level holds it. -/
def loadIfPresent (context : LoadingContext) (tree : FileTree) (level : LevelId) (name : String) :
    Logged (Option LoadedClass) := do
  match ← (context.loadFrom tree level name).attempt with
  | .ok loaded => return some loaded
  | .error (.classNotFound _) => return none
  | .error error => .fail error

/-- The names of the direct supertypes of a class: its interfaces and then its superclass. -/
def supertypeNames (loaded : LoadedClass) : List String :=
  loaded.file.interfaces ++ loaded.file.superName.toList

/-- The direct supertypes of a class that some level holds. -/
def supertypes (context : LoadingContext) (tree : FileTree) (loaded : LoadedClass) :
    Logged (List LoadedClass) := do
  return (← (supertypeNames loaded).mapM (context.loadIfPresent tree loaded.definedBy)).reduceOption

/-- The types that the context can define: every name that a class file anywhere in the tree
declares, at every level. -/
def definableTypes (context : LoadingContext) (tree : FileTree) : List (LevelId × String) :=
  let contents := tree.contents.flatMap fun content => content :: Archive.contents content
  let names := contents.filterMap fun content =>
    (ClassFile.parse content).toOption.map (·.name)
  context.levels.flatMap fun level => names.map fun name => (level.id, name)

/-- Types without one of them. -/
def without (type : LevelId × String) (types : List (LevelId × String)) :
    List (LevelId × String) :=
  types.filter (· != type)

theorem length_without_lt {type : LevelId × String} {types : List (LevelId × String)}
    (member : type ∈ types) : (without type types).length < types.length := by
  refine Nat.lt_of_le_of_ne (List.length_filter_le ..) fun equal => ?_
  have kept := List.length_filter_eq_length_iff.mp equal type member
  simp at kept

/-- Search the waiting classes and their supertypes for the type `target`. The types in `unseen`
have not been looked at; only their supertypes are still to be searched. -/
def search (context : LoadingContext) (tree : FileTree) (target : LevelId × String) :
    List LoadedClass → List (LevelId × String) → Logged Bool
  | [], _ => return false
  | current :: waiting, unseen =>
    if current.key = target then return true
    else if current.key ∈ unseen then do
      let found ← context.supertypes tree current
      context.search tree target (waiting ++ found) (without current.key unseen)
    else context.search tree target waiting unseen
termination_by waiting unseen => (unseen.length, waiting.length)
decreasing_by
  · exact Prod.Lex.left _ _ (length_without_lt (by assumption))
  · exact Prod.Lex.right _ (Nat.lt_succ_self _)

/-- Whether `candidate` is `target` or has it among its supertypes. -/
def isAssignable (context : LoadingContext) (tree : FileTree) (target candidate : LoadedClass) :
    Logged Bool :=
  context.search tree target.key [candidate] (candidate.key :: context.definableTypes tree)

end ExtensionCatalog.LoadingContext
