/-
**Reading TOML texts.**

A text is a sequence of lines, each with a statement or without one. The statements are carried out
one after the other on an empty table.

* `value`: arrays and inline tables nested in each other up to a depth;
* `statement`: an assignment or a header;
* `parse?`: the document of a text.
-/

import ExtensionCatalog.Toml.Scalar
import ExtensionCatalog.Toml.Table

namespace ExtensionCatalog.Toml

open Text Text.Parser

/-- The values of an array, separated by commas; a last comma is allowed. -/
def arrayOf (value : Parser Document) : Parser Document := do
  exactly "["
  let values ← optional do
    let values ← separated (do
      gap
      let item ← value
      gap
      return item) (exactly ",")
    let _ ← optional (exactly ",")
    return values
  gap
  exactly "]"
  return .list (values.getD [])

/-- A dotted key and its value. -/
abbrev Assignment := (List String × String) × Document

/-- The table of assignments. -/
def tableOf (assignments : List Assignment) : Option Document := do
  let entries ← assignments.foldlM (fun entries ((path, name), value) =>
    assign name value path entries) []
  return .table (entriesToDocuments entries)

/-- An assignment whose value is followed by spaces. -/
def assignment (value : Parser Document) : Parser Assignment := do
  let name ← key
  exactly "="
  spaces
  let value ← value
  spaces
  return (name, value)

/-- The assignments of an inline table, separated by commas. -/
def inlineTableOf (value : Parser Document) : Parser Document := do
  exactly "\x7b"
  let assignments ← optional (separated (assignment value) (exactly ","))
  spaces
  exactly "\x7d"
  StateT.lift (tableOf (assignments.getD []))

/-- A value without parts. -/
def scalar : Parser Document :=
  (do return .text (← string)) <|> (do return .moment (← moment)) <|> number <|>
    (do
      exactly "true"
      return .boolean true) <|> do
    exactly "false"
    return .boolean false

/-- A value in which arrays and inline tables are nested at most `depth` deep. -/
def value : Nat → Parser Document
  | 0 => scalar
  | depth + 1 => fun input =>
    let inner := value depth
    (scalar <|> arrayOf inner <|> inlineTableOf inner) input

/-- What a line says. -/
inductive Statement where
  | assign (assignment : Assignment)
  | table (path : List String) (name : String)
  | element (path : List String) (name : String)

def statement : Parser Statement :=
  (do
    exactly "[["
    let (path, name) ← key
    exactly "]]"
    return .element path name) <|>
  (do
    exactly "["
    let (path, name) ← key
    exactly "]"
    return .table path name) <|>
  do return .assign (← assignment (value deepest))

/-- A line: spaces, perhaps a statement, perhaps a comment, and the end. -/
def line : Parser (Option Statement) := do
  spaces
  let said ← optional statement
  lineEnd
  return said

/-- The statements of a text. -/
def statements : Parser (List Statement) := do
  let _ ← optional (exactly "\uFEFF")
  let said ← many line
  finish
  return said.filterMap id

/-- The tables made so far, and the names that lead to the open one. -/
structure Draft where
  root : Entries
  opened : List String

/-- Carry out one statement. -/
def Draft.add (draft : Draft) : Statement → Option Draft
  | .assign ((path, name), value) => do
    return { draft with root := ← within draft.opened (assign name value path) draft.root }
  | .table path name => do
    return ⟨← openTable path name draft.root, path ++ [name]⟩
  | .element path name => do
    return ⟨← openElement path name draft.root, path ++ [name]⟩

/-- The document of a text. -/
def parse? (text : String) : Option Document := do
  let (said, _) ← statements text.toList
  let draft ← said.foldlM Draft.add ⟨[], []⟩
  return .table (entriesToDocuments draft.root)

end ExtensionCatalog.Toml
