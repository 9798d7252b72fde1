/-
**The command line.**

Arguments are read from left to right. An option has a long name and perhaps a short one; its value
stands behind it or is attached to it. Short options may be joined. What follows `--` is no option.
Asking for help or for the version answers at once, whatever comes later.

* `Request`: what a run is asked for;
* `Invocation.parse`: what a command line asks for.
-/

import ExtensionCatalog.Coordinate
import ExtensionCatalog.FilePath
import ExtensionCatalog.OutputFormat

namespace ExtensionCatalog

/-- What a run is asked for. -/
structure Request where
  module : Coordinate
  settings : Option FilePath := none
  lockfile : Option FilePath := none
  repository : Option FilePath := none
  output : Option FilePath := none
  formats : List OutputFormat := []
  excluded : List Coordinate := []
  isVerbose : Bool := false
deriving DecidableEq

/-- What a command line asks for. -/
inductive Invocation where
  | document (request : Request)
  | help
  | version
  /-- The command line cannot be understood. -/
  | misuse
deriving DecidableEq

namespace CommandLine

/-- What the arguments read so far ask for. -/
structure Draft where
  module : Option Coordinate := none
  settings : Option FilePath := none
  lockfile : Option FilePath := none
  repository : Option FilePath := none
  output : Option FilePath := none
  formats : List OutputFormat := []
  excluded : List Coordinate := []
  isVerbose : Bool := false

/-- What an option does. -/
inductive Effect where
  | value (take : String → Draft → Option Draft)
  | flag (take : Draft → Option Draft)
  | answer (invocation : Invocation)

/-- The names of an option and what it does. -/
structure OptionForm where
  short : Option Char
  long : String
  effect : Effect

/-- A path, which must not be empty. -/
def pathOf? (text : String) : Option FilePath := if text.isEmpty then none else some ⟨text⟩

/-- A value that may be given once. -/
def once {α : Type} (present : Option α) (value : Option α) : Option (Option α) :=
  match present, value with
  | none, some value => some (some value)
  | _, _ => none

/-- The options. -/
def options : List OptionForm :=
  [⟨some 'c', "config", .value fun text draft => do
      return { draft with settings := ← once draft.settings (pathOf? text) }⟩,
    ⟨some 'l', "lockfile", .value fun text draft => do
      return { draft with lockfile := ← once draft.lockfile (pathOf? text) }⟩,
    ⟨some 'r', "repository", .value fun text draft => do
      return { draft with repository := ← once draft.repository (pathOf? text) }⟩,
    ⟨some 'o', "output", .value fun text draft => do
      return { draft with output := ← once draft.output (pathOf? text) }⟩,
    ⟨some 'f', "format", .value fun text draft => do
      return { draft with formats := draft.formats ++ [← (OutputFormat.parse text).toOption] }⟩,
    ⟨none, "exclude", .value fun text draft => do
      return { draft with excluded := draft.excluded ++ [← Coordinate.parse? text] }⟩,
    ⟨some 'v', "verbose", .flag fun draft =>
      if draft.isVerbose then none else some { draft with isVerbose := true }⟩,
    ⟨some 'h', "help", .answer .help⟩,
    ⟨some 'V', "version", .answer .version⟩]

/-- Where reading stands: whether an option still lacks its value, and whether options are over. -/
structure State where
  draft : Draft := {}
  pending : Option (String → Draft → Option Draft) := none
  isTrailing : Bool := false

/-- Go on with a changed draft. -/
def State.take (state : State) (draft : Option Draft) : Except Invocation State :=
  match draft with
  | some draft => .ok { state with draft, pending := none }
  | none => .error .misuse

/-- Read an argument that is no option. -/
def State.positional (state : State) (argument : String) : Except Invocation State :=
  state.take do
    return { state.draft with module := ← once state.draft.module (Coordinate.parse? argument) }

/-- Read a long option behind its dashes. -/
def State.long (state : State) (body : List Char) : Except Invocation State :=
  let (name, attached) := body.span (· != '=')
  match options.find? (·.long == String.ofList name), attached with
  | none, _ => .error .misuse
  | some ⟨_, _, .value take⟩, _ :: text => state.take (take (String.ofList text) state.draft)
  | some ⟨_, _, .value take⟩, [] => .ok { state with pending := some take }
  | some ⟨_, _, .flag take⟩, [] => state.take (take state.draft)
  | some ⟨_, _, .answer invocation⟩, [] => .error invocation
  | some _, _ :: _ => .error .misuse

/-- Read joined short options behind their dash. -/
def State.short (state : State) : List Char → Except Invocation State
  | [] => .ok state
  | name :: rest =>
    match options.find? (·.short == some name) with
    | none => .error .misuse
    | some ⟨_, _, .value take⟩ =>
      match rest with
      | [] => .ok { state with pending := some take }
      | '=' :: text => state.take (take (String.ofList text) state.draft)
      | text => state.take (take (String.ofList text) state.draft)
    | some ⟨_, _, .flag take⟩ => do
      (← state.take (take state.draft)).short rest
    | some ⟨_, _, .answer invocation⟩ => .error invocation

/-- Read one argument. -/
def State.read (state : State) (argument : String) : Except Invocation State :=
  if state.isTrailing then state.positional argument
  else
    match state.pending, argument.toList with
    | some take, ['-'] => state.take (take argument state.draft)
    | some _, '-' :: _ => .error .misuse
    | some take, _ => state.take (take argument state.draft)
    | none, ['-', '-'] => .ok { state with isTrailing := true }
    | none, '-' :: '-' :: body => state.long body
    | none, '-' :: name :: rest => state.short (name :: rest)
    | none, _ => state.positional argument

/-- What the arguments ask for when all are read. -/
def State.finish (state : State) : Invocation :=
  match state.pending, state.draft.module with
  | none, some module =>
    .document {
      module
      settings := state.draft.settings
      lockfile := state.draft.lockfile
      repository := state.draft.repository
      output := state.draft.output
      formats := state.draft.formats
      excluded := state.draft.excluded
      isVerbose := state.draft.isVerbose }
  | _, _ => .misuse

end CommandLine

/-- What a command line asks for. -/
def Invocation.parse (arguments : List String) : Invocation :=
  match arguments.foldlM CommandLine.State.read {} with
  | .ok state => state.finish
  | .error invocation => invocation

end ExtensionCatalog
