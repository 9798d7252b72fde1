/-
**Building the tables of a TOML text.**

A table is opened by a header, by a dotted key, or because a longer header or key passes through
it. How it was opened decides what may be added to it later.

* `assign`: give a value to a dotted key, seen from the open table;
* `openTable`, `openElement`: what a header does;
* `toDocument`: the finished tree.
-/

import ExtensionCatalog.Document

namespace ExtensionCatalog.Toml

/-- How a table came to be: by its own header, because a longer header passes through it, or by a
dotted key. -/
inductive Origin where
  | header
  | passed
  | dotted
deriving DecidableEq

/-- A part of a TOML text under construction. -/
inductive Node where
  | leaf (value : Document)
  | table (origin : Origin) (entries : List (String × Node))
  /-- The tables of an array, each opened by a header of its own. -/
  | elements (tables : List Node)
deriving Inhabited

abbrev Entries := List (String × Node)

/-- Change what stands under a name, or add it at the end. -/
def update (name : String) (change : Option Node → Option Node) : Entries → Option Entries
  | [] => do return [(name, ← change none)]
  | (first, node) :: rest =>
    if first = name then do return (first, ← change (some node)) :: rest
    else do return (first, node) :: (← update name change rest)

/-- Change the last table of an array. -/
def updateLast (change : Entries → Option Entries) : List Node → Option (List Node)
  | [] => none
  | [.table origin entries] => do return [.table origin (← change entries)]
  | [_] => none
  | first :: rest => do return first :: (← updateLast change rest)

/-- Change the table that the names of a header lead to; tables that are missing are passed
through. -/
def within : List String → (Entries → Option Entries) → Entries → Option Entries
  | [], change => change
  | name :: rest, change => update name fun
    | none => do return .table .passed (← within rest change [])
    | some (.table origin entries) => do return .table origin (← within rest change entries)
    | some (.elements tables) => do return .elements (← updateLast (within rest change) tables)
    | some (.leaf _) => none

/-- Give a value to a name that has none. -/
def define (name : String) (value : Document) : Entries → Option Entries :=
  update name fun
    | none => some (.leaf value)
    | some _ => none

/-- Give a value to a dotted key: the tables before the last name are opened by the key, or were
opened by one before. -/
def assign (name : String) (value : Document) : List String → Entries → Option Entries
  | [] => define name value
  | first :: rest => update first fun
    | none => do return .table .dotted (← assign name value rest [])
    | some (.table origin entries) =>
      if origin = .header ∨ (rest.isEmpty ∧ origin ≠ .dotted) then none
      else do return .table origin (← assign name value rest entries)
    | some (.elements tables) =>
      if rest.isEmpty then none
      else do return .elements (← updateLast (assign name value rest) tables)
    | some (.leaf _) => none

/-- Open a table by a header. -/
def openTable (path : List String) (name : String) : Entries → Option Entries :=
  within path <| update name fun
    | none => some (.table .header [])
    | some (.table .passed entries) => some (.table .header entries)
    | some _ => none

/-- Open a further table of an array by a header. -/
def openElement (path : List String) (name : String) : Entries → Option Entries :=
  within path <| update name fun
    | none => some (.elements [.table .header []])
    | some (.elements tables) => some (.elements (tables ++ [.table .header []]))
    | some _ => none

mutual

/-- The finished tree. -/
def Node.toDocument : Node → Document
  | .leaf value => value
  | .table _ entries => .table (entriesToDocuments entries)
  | .elements tables => .list (nodesToDocuments tables)

def nodesToDocuments : List Node → List Document
  | [] => []
  | first :: rest => first.toDocument :: nodesToDocuments rest

def entryToDocument : String × Node → String × Document
  | (name, node) => (name, node.toDocument)

def entriesToDocuments : Entries → List (String × Document)
  | [] => []
  | first :: rest => entryToDocument first :: entriesToDocuments rest

end

end ExtensionCatalog.Toml
