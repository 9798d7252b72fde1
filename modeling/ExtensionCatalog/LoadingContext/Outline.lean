/-
**The outline of a chain: a text with its levels and their artifacts.**

Levels are listed from the root down, each indented below the one above it.
-/

import ExtensionCatalog.LoadingContext.Basic

namespace ExtensionCatalog.LoadingContext

/-- The lines of a level at a depth; `label` spells its identity. -/
def levelLines (label : LevelId → String) (depth : Nat) (level : Level) : List String :=
  let indentation := String.ofList (List.replicate (2 * depth) ' ')
  let title := (level.module.map toString).getD "<foundation>"
  s!"{indentation}{title} [{label level.id}]" ::
    level.artifacts.toList.map fun (coordinate, path) =>
      s!"{indentation}  - {coordinate} ({path.text})"

/-- The outline of a context; `label` spells the identities of levels. -/
def outline (context : LoadingContext) (label : LevelId → String) : String :=
  let lines := context.levels.reverse.zipIdx.flatMap fun (level, depth) =>
    levelLines label depth level
  String.join (lines.map (· ++ "\n"))

end ExtensionCatalog.LoadingContext
