/-
**Documenting a module by settings.**

* `Settings.sources`: the lockfile and the repository that are used;
* `Settings.document`: the report of a module and the documents written for it.
-/

import ExtensionCatalog.Lockfile
import ExtensionCatalog.Report
import ExtensionCatalog.Repository
import ExtensionCatalog.Settings.Load

namespace ExtensionCatalog

/-- Why a module cannot be documented. -/
inductive RunFault where
  | noLockfile
  | lockfile (path : FilePath)
  /-- The place of the local repository is not known. -/
  | noRepository
  | output (path : FilePath)
deriving DecidableEq

/-- The text shown for a fault, in front of that of its cause. -/
def RunFault.message : RunFault → String
  | noLockfile =>
    "No dependency lockfile configured (set repository.lockfile or pass --lockfile)"
  | lockfile path => s!"Failed to load dependency lockfile: {path.text}"
  | noRepository => "Failed to determine home directory"
  | output path => s!"Failed to write documentation to {path.text}"

/-- The report of a module, and the paths of the documents written for it. -/
structure Documentation where
  report : DocumentationReport
  written : List FilePath

namespace Settings

/-- The lockfile and the repository that settings name. -/
def sources (settings : Settings) (tree : FileTree) (home : Option FilePath) :
    Except RunFault (DependencyLockfile × LocalRepository) :=
  match settings.repository.lockfile with
  | none => .error .noLockfile
  | some path =>
    match DependencyLockfile.load tree path with
    | .error _ => .error (.lockfile path)
    | .ok lockfile =>
      match settings.localRepository home with
      | none => .error .noRepository
      | some root => .ok (lockfile, ⟨root⟩)

/-- What the context of a module is assembled from. -/
def assembly (settings : Settings) (tree : FileTree) (lockfile : DependencyLockfile)
    (repository : LocalRepository) (excluded : List Coordinate) (chain : Nat) : Assembly where
  provider := lockfile.provider
  foundation := settings.foundation
  excluded := excluded
  resolver := repository.resolver tree
  tree := tree
  chain := chain

/-- Document a module and never expose the excluded artifacts to it. -/
def document (settings : Settings) (tree : FileTree) (home : Option FilePath)
    (module : Coordinate) (excluded : List Coordinate) (chain : Nat) :
    Performed (Except RunFault Documentation) :=
  match settings.sources tree home with
  | .error fault => ⟨[], [], .error fault⟩
  | .ok (lockfile, repository) =>
    let line := s!"Using {lockfile.size} locked artifacts and repository {repository.root.text}"
    let assembly := settings.assembly tree lockfile repository excluded chain
    let (log, report) := assembly.report settings.discovery module
    let written := report.write tree settings.output.directory settings.output.formats
    ⟨written.changes, ⟨.info, line⟩ :: log ++ written.log,
      match written.outcome with
      | .ok paths => .ok ⟨report, paths⟩
      | .error _ => .error (.output settings.output.directory)⟩

end Settings

end ExtensionCatalog
