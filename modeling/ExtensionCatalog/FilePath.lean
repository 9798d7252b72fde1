/-
**File paths.**

A path is its text; nothing is folded away when paths are joined. An absolute segment replaces the
path it is joined to, and an empty one only makes it end in a slash.

* `join`: one segment below a path;
* `segments`: the names between the slashes, as a lookup walks them;
* `trail`: the paths that lead to a path;
* `closed`: the path without the slashes at its end;
* `parent?`: the path without its last component.
-/

import ExtensionCatalog.Text.Split

namespace ExtensionCatalog

/-- A path, as it is written. -/
structure FilePath where
  text : String
deriving DecidableEq, Inhabited

namespace FilePath

def isAbsolute (path : FilePath) : Bool := path.text.toList.head? == some '/'

/-- Whether something put behind the text begins a new segment: the text is empty or ends in a
slash. -/
def isOpen (path : FilePath) : Bool :=
  match path.text.toList.getLast? with
  | none => true
  | some c => c == '/'

/-- The path `segment` below `path`, or `segment` itself if it is absolute. -/
def join (path segment : FilePath) : FilePath :=
  if segment.isAbsolute then segment
  else if path.isOpen then ⟨path.text ++ segment.text⟩
  else ⟨path.text ++ "/" ++ segment.text⟩

/-- The path `name` below `path`, or `name` itself if it is absolute. -/
def joinText (path : FilePath) (name : String) : FilePath := path.join ⟨name⟩

/-- The names between the slashes. -/
def segments (path : FilePath) : List String := Text.splitText '/' path.text

/-- The paths that the first segments spell, the shortest one first; the last one is the path. -/
def trail (path : FilePath) : List FilePath :=
  (List.range path.segments.length).map fun count =>
    ⟨String.intercalate "/" (path.segments.take (count + 1))⟩

/-- The path without the slashes at its end. -/
def closed (path : FilePath) : FilePath :=
  ⟨String.ofList (path.text.toList.reverse.dropWhile (· == '/')).reverse⟩

/-- A segment that a lookup steps over without moving. -/
def isIdle (segment : String) : Bool := segment == "" || segment == "."

/-- Segments without the idle ones at the end, given and returned last one first; the very first
segment stays. -/
def dropIdle : List String → List String
  | segment :: next :: more =>
    if isIdle segment then dropIdle (next :: more) else segment :: next :: more
  | rest => rest

/-- The path without its last component; nothing for the root and for the empty path. -/
def parent? (path : FilePath) : Option FilePath :=
  match dropIdle path.segments.reverse with
  | [] => none
  | [only] => if only == "" then none else some ⟨""⟩
  | _ :: rest =>
    match dropIdle rest with
    | [""] => some ⟨"/"⟩
    | kept => some ⟨String.intercalate "/" kept.reverse⟩

end FilePath

end ExtensionCatalog
