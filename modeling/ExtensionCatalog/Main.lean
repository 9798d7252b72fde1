/-
**The program.**

The files that the command line reads are loaded until no more are asked for. What the command line
leads to is then worked out, and its changes are made.
-/

import ExtensionCatalog.CommandLine.Reads

namespace ExtensionCatalog.Program

/-- Whether a directory stands at a path: only below a directory can `.` be opened. -/
def isDirectory (path : FilePath) : IO Bool := do
  try
    let _ ← IO.FS.Handle.mk (path.joinText ".").text .read
    return true
  catch _ => return false

/-- The tree with what stands at a path. -/
def load (tree : FileTree) (path : FilePath) : IO FileTree := do
  if ← isDirectory path then
    return (FileTree.makeAlong path.segments (tree.start path) tree).1
  try
    let content ← IO.FS.readBinFile path.text
    let beside := (tree.makeDirectories (path.parent?.getD ⟨""⟩)).1
    return (beside.write path content.toList).1
  catch _ => return tree

/-- The tree with everything that is asked for; `known` are the paths asked for before. -/
partial def loadAll (wanted : FileTree → List FilePath) (known : SortedSet String)
    (tree : FileTree) : IO FileTree := do
  let asked : SortedSet String := .ofList ((wanted tree).map (·.text))
  let missing := asked.toList.filter (· ∉ known)
  if missing.isEmpty then return tree
  let loaded ← missing.foldlM (fun tree path => load tree ⟨path⟩) tree
  loadAll wanted (known.union asked) loaded

/-- Make a change. -/
def perform : FileTree.Change → IO Unit
  | .makeDirectories path => unless path.text.isEmpty do IO.FS.createDirAll path.text
  | .write path content => IO.FS.writeBinFile path.text ⟨content.toArray⟩

/-- The directories of the user who runs the program. -/
def userDirectories : IO UserDirectories := do
  let home := ((← IO.getEnv "HOME").filter (!·.isEmpty)).map FilePath.mk
  let settings := ((← IO.getEnv "XDG_CONFIG_HOME").map FilePath.mk).filter (·.isAbsolute)
  return { home, settings := settings.or (home.map (·.joinText ".config")) }

/-- Whether a line of the log is shown at a level, which may also be one above all lines. -/
def isShown (level : String) (line : LogLine) : Bool :=
  line.level.name.toLower ∈ logLevels.dropWhile (· != level)

/-- The level at which the log is shown. The environment has a say in it before the settings do; a
filter there that is no level by itself is passed over. -/
def shownLevel (level : String) : IO String := do
  let given := (← IO.getEnv "RUST_LOG").map (·.toLower)
  return (given.filter (· ∈ "off" :: logLevels)).getD level

/-- The text for a line on standard output. -/
def textOf : CommandLine.OutputLine → String
  | .logged line => s!"{line.level.name} {line.message}"
  | .printed text => text

/-- Run a command line; the exit code. -/
def run (arguments : List String) : IO UInt8 := do
  let directories ← userDirectories
  let here : FilePath := ⟨toString (← IO.currentDir)⟩
  let start := FileTree.ofWorkingDirectory (here.segments.filter (!·.isEmpty))
  let tree ←
    match Invocation.parse arguments with
    | .document request => loadAll (request.reads · directories) ∅ start
    | _ => pure start
  let result := CommandLine.run tree directories arguments
  try
    result.changes.forM perform
  catch error =>
    if result.status = .success then throw error
  let level ← shownLevel result.logLevel
  for line in result.shown (isShown level) do
    IO.println (textOf line)
  if result.status = .misuse then IO.eprintln CommandLine.usageText
  return result.status.code

end ExtensionCatalog.Program

def main (arguments : List String) : IO UInt32 := do
  return (← ExtensionCatalog.Program.run arguments).toUInt32
