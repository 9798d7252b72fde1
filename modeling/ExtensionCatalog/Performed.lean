/-
**Actions on files as values.**

What an action leads to is its outcome, the changes it asks for and the lines it logs. Changes are
asked for in order, and the first one that is not possible is the last one made.
-/

import ExtensionCatalog.FileTree
import ExtensionCatalog.Logged

namespace ExtensionCatalog

/-- An outcome, the changes that led to it and the lines logged on the way. -/
structure Performed (α : Type) where
  changes : List FileTree.Change
  log : List LogLine
  outcome : α

namespace Performed

/-- The files after the changes. -/
def apply {α : Type} (performed : Performed α) (tree : FileTree) : FileTree :=
  (tree.applyAll performed.changes).1

end Performed

end ExtensionCatalog
