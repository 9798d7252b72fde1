/-
**Class path entries: where classes and resources are read from.**

An entry is a directory or an archive; which of the two is settled when the entry is made. A file
that is no archive holds nothing.

* `ClassPathEntry.ofPath`: the entry of a path, by what stands there;
* `ClassPathEntry.read`: the content that an entry has under a name.
-/

import ExtensionCatalog.Archive.Member
import ExtensionCatalog.FileTree
import ExtensionCatalog.Logged

namespace ExtensionCatalog

/-- A place that classes and resources are read from. -/
inductive ClassPathEntry where
  | directory (path : FilePath)
  | archive (path : FilePath)
deriving DecidableEq

namespace ClassPathEntry

/-- The entry of a path: a directory, or else an archive. -/
def ofPath (tree : FileTree) (path : FilePath) : ClassPathEntry :=
  if tree.isDirectory path then directory path else archive path

def path : ClassPathEntry → FilePath
  | directory path => path
  | archive path => path

/-- The path of a `/`-separated name below a directory; empty segments are left out. -/
def below (root : FilePath) (name : String) : FilePath :=
  ((Text.splitText '/' name).filter (!·.isEmpty)).foldl FilePath.joinText root

/-- The content that an archive has under a name; bytes that are no archive are skipped. -/
def readArchive (path : FilePath) (bytes : Bytes) (name : String) : Logged (Option Bytes) :=
  match Archive.read? bytes name with
  | .ok content => return content
  | .error (.directory (.unreadable reason)) => do
    .note .warn s!"Skipping unreadable class path entry {Text.quoted path.text}: {reason}"
    return none
  | .error (.directory .truncated) => .fail .archive
  | .error .member => .fail .archive
  | .error .content => .fail .file

/-- The content that an entry has under a name, if any. -/
def read (tree : FileTree) : ClassPathEntry → String → Logged (Option Bytes)
  | directory root, name => return tree.read? (below root name)
  | archive path, name =>
    match tree.entry? path with
    | some (.file bytes) => readArchive path bytes name
    | some .directory => .fail .archive
    | none => .fail .file

end ClassPathEntry

end ExtensionCatalog
