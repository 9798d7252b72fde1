/-
**A file system as a value.**

A file tree records what stands at each absolute location and where relative paths start. Lookups
walk a path segment by segment: every segment needs a directory to start from, `..` leads to the
parent directory, and names have the usual limits. Changes return the changed tree also when they
fail, because directories made before the failure stay.

* `locate?`: the location a path leads to;
* `read?`, `readText?`, `isDirectory`, `exists?`: what stands there;
* `apply`, `applyAll`: making directories and writing files.
-/

import ExtensionCatalog.Bytes
import ExtensionCatalog.FilePath
import ExtensionCatalog.Sorted.Map
import ExtensionCatalog.Text.Utf8

namespace ExtensionCatalog

/-- The names on the way from the root. -/
abbrev Location := List String

/-- What stands at a location. -/
inductive FileEntry where
  | directory
  | file (content : Bytes)
deriving DecidableEq

/-- What stands at every location, and where relative paths start. -/
structure FileTree where
  entries : SortedMap Location FileEntry
  workingDirectory : Location

namespace FileTree

/-- The longest name of a file, in bytes. -/
def longestName : Nat := 255

/-- The longest path that can be looked up, in bytes. -/
def longestPath : Nat := 4095

/-- Whether a file or directory can have this name. -/
def isName (name : String) : Bool :=
  name != "" && name != "." && name != ".." && name.utf8ByteSize ≤ longestName

/-- Whether a path can be looked up at all. -/
def isLookupPath (path : FilePath) : Bool :=
  path.text != "" && path.text.utf8ByteSize ≤ longestPath && !path.text.toList.contains '\x00'

/-- What stands at a location; the root is always a directory. -/
def entryAt? (tree : FileTree) (location : Location) : Option FileEntry :=
  if location = [] then some .directory else tree.entries.find? location

/-- Where a walk along the path starts. -/
def start (tree : FileTree) (path : FilePath) : Location :=
  if path.isAbsolute then [] else tree.workingDirectory

/-- Follow segments from a location. -/
def walk (tree : FileTree) : List String → Location → Option Location
  | [], here => some here
  | segment :: rest, here =>
    if tree.entryAt? here = some .directory then
      if FilePath.isIdle segment then walk tree rest here
      else if segment = ".." then walk tree rest here.dropLast
      else if (tree.entryAt? (here ++ [segment])).isSome then walk tree rest (here ++ [segment])
      else none
    else none

/-- The location that a path leads to, if something stands there. -/
def locate? (tree : FileTree) (path : FilePath) : Option Location :=
  if isLookupPath path then tree.walk path.segments (tree.start path) else none

/-- What stands where a path leads. -/
def entry? (tree : FileTree) (path : FilePath) : Option FileEntry := do
  tree.entryAt? (← tree.locate? path)

def exists? (tree : FileTree) (path : FilePath) : Bool := (tree.entry? path).isSome

def isDirectory (tree : FileTree) (path : FilePath) : Bool := tree.entry? path == some .directory

/-- The content of the file that a path leads to. -/
def read? (tree : FileTree) (path : FilePath) : Option Bytes :=
  match tree.entry? path with
  | some (.file content) => some content
  | _ => none

/-- The text of the file that a path leads to. -/
def readText? (tree : FileTree) (path : FilePath) : Option String := do
  let text ← Text.Utf8.decode? (← tree.read? path)
  return String.ofList text

/-- The contents of all files. -/
def contents (tree : FileTree) : List Bytes :=
  tree.entries.values.filterMap fun
    | .file content => some content
    | .directory => none

/-! ### Changes -/

/-- Make the missing directories along the segments from a location on. -/
def makeAlong : List String → Location → FileTree → FileTree × Bool
  | [], here, tree => (tree, tree.entryAt? here == some .directory)
  | segment :: rest, here, tree =>
    if tree.entryAt? here = some .directory then
      if FilePath.isIdle segment then makeAlong rest here tree
      else if segment = ".." then makeAlong rest here.dropLast tree
      else
        let next := here ++ [segment]
        match tree.entryAt? next with
        | some _ => makeAlong rest next tree
        | none =>
          if isName segment then
            makeAlong rest next { tree with entries := tree.entries.insert next .directory }
          else (tree, false)
    else (tree, false)

/-- The location at which a file or directory of this path stands or can be made. -/
def destination? (tree : FileTree) (path : FilePath) : Option Location :=
  match path.segments.reverse with
  | [] => none
  | name :: above =>
    if isLookupPath path && isName name then do
      let here ← tree.walk above.reverse (tree.start path)
      if tree.entryAt? here = some .directory then some (here ++ [name]) else none
    else none

/-- Make a directory whose parent directory exists; slashes at the end of its path do not matter.
Whether it exists afterwards. -/
def makeDirectory (tree : FileTree) (path : FilePath) : FileTree × Bool :=
  if tree.isDirectory path then (tree, true)
  else
    match tree.destination? path.closed with
    | none => (tree, false)
    | some location =>
      if (tree.entryAt? location).isSome then (tree, false)
      else ({ tree with entries := tree.entries.insert location .directory }, true)

/-- Make the missing directories above a path, and then the one it leads to; whether that one
exists afterwards. A path such as `a/.` has nothing above it and leads to a directory only if
`a` is one. -/
def makeDirectories (tree : FileTree) (path : FilePath) : FileTree × Bool :=
  if path.text = "" then (tree, true)
  else if isLookupPath path then
    match path.parent? with
    | none => (tree, true)
    | some above =>
      let (changed, possible) := makeAlong above.segments (tree.start path) tree
      if possible then changed.makeDirectory path else (changed, false)
  else (tree, false)

/-- Put a content at the path of a file that exists or can be made; whether that was possible. -/
def write (tree : FileTree) (path : FilePath) (content : Bytes) : FileTree × Bool :=
  match tree.destination? path with
  | none => (tree, false)
  | some location =>
    if tree.entryAt? location = some .directory then (tree, false)
    else ({ tree with entries := tree.entries.insert location (.file content) }, true)

/-- Forget everything below where a path leads, and then what stands there; whether nothing is
there any more. A path that ends in `.` or `..` only empties the directory it leads to. -/
def remove (tree : FileTree) (path : FilePath) : FileTree × Bool :=
  match tree.locate? path with
  | none => (tree, false)
  | some location =>
    let isNamed := path.closed.segments.getLast?.any isName
    let isKept (other : Location) : Bool :=
      !location.isPrefixOf other || (!isNamed && other == location)
    let changed := { tree with entries := tree.entries.filter fun other _ => isKept other }
    (changed, (changed.locate? path).isNone)

/-- Everything strictly below a location, with the names on the way from there. -/
def below (tree : FileTree) (location : Location) : List (Location × FileEntry) :=
  tree.entries.toList.filterMap fun (other, entry) =>
    if location.isPrefixOf other && other != location then
      some (other.drop location.length, entry)
    else none

/-- A change to a file tree. -/
inductive Change where
  | makeDirectories (path : FilePath)
  | write (path : FilePath) (content : Bytes)
deriving DecidableEq

/-- Make one change; whether it was possible. -/
def apply (tree : FileTree) : Change → FileTree × Bool
  | .makeDirectories path => tree.makeDirectories path
  | .write path content => tree.write path content

/-- Make changes in order up to the first that is not possible; whether all were. -/
def applyAll (tree : FileTree) : List Change → FileTree × Bool
  | [] => (tree, true)
  | change :: rest =>
    let (changed, possible) := tree.apply change
    if possible then changed.applyAll rest else (changed, false)

/-- The tree with nothing but the directories down to where relative paths start. -/
def ofWorkingDirectory (location : Location) : FileTree :=
  (makeAlong location [] ⟨∅, location⟩).1

end FileTree

end ExtensionCatalog
