/-
**Structured documents, and reading values out of them.**

A document is a tree of scalars, lists and tables, as JSON and TOML texts spell it. Readers of
values fail on a wrong shape and on a missing field without default; fields nobody asks for are
ignored.

* `Record`: the fields of a structured value, given as a table or, in the order of the fields, as a
  list;
* `readText`, `readPath`, `readList`, `readTextMap`: values of one shape;
* `readChoice`: one of some names.
-/

import ExtensionCatalog.FilePath
import ExtensionCatalog.Sorted.Map

namespace ExtensionCatalog

/-- A tree of scalars, lists and tables. -/
inductive Document where
  | null
  | boolean (value : Bool)
  | integer (value : Int)
  | float (text : String)
  | text (value : String)
  /-- A date, a time, or both. -/
  | moment (text : String)
  | list (items : List Document)
  | table (entries : List (String × Document))
deriving Inhabited

namespace Document

/-- What the spellings of documents differ in when values are read. -/
structure Dialect where
  /-- Whether a list may hold more items than a structured value has fields. -/
  allowsExtraItems : Bool
  /-- Whether a table of one name may name a choice with this value behind it. -/
  isChoiceMark : Document → Bool

/-- In JSON a choice may be the single key of an object that holds null. -/
def Dialect.json : Dialect where
  allowsExtraItems := false
  isChoiceMark
    | .null => true
    | _ => false

/-- In TOML a choice may be the single key of a table that holds an empty table or array. -/
def Dialect.toml : Dialect where
  allowsExtraItems := true
  isChoiceMark
    | .table [] => true
    | .list [] => true
    | _ => false

/-- The key under which a moment is found where a table is expected. -/
def momentKey : String := "$__toml_private_datetime"

/-- The entries of a table. -/
def entries? : Document → Option (List (String × Document))
  | table entries => some entries
  | moment spelled => some [(momentKey, .text spelled)]
  | _ => none

/-- The value of a key of a table; the last one, if the key is repeated. -/
def lookup (key : String) (entries : List (String × Document)) : Option Document :=
  (entries.reverse.find? (·.1 == key)).map (·.2)

def readText : Document → Option String
  | text value => some value
  | _ => none

def readPath (document : Document) : Option FilePath := document.readText.map FilePath.mk

/-- A value that may be null. -/
def readOptional {α : Type} (read : Document → Option α) : Document → Option (Option α)
  | null => some none
  | document => (read document).map some

/-- A list of values. -/
def readList {α : Type} (read : Document → Option α) : Document → Option (List α)
  | list items => items.mapM read
  | _ => none

/-- A table of texts. -/
def readTextMap (document : Document) : Option (SortedMap String String) := do
  let entries ← document.entries?
  let pairs ← entries.mapM fun (key, value) => do return (key, ← value.readText)
  return .ofList pairs

/-- One of some names, alone or as the single key of a table that marks it. -/
def readChoice {α : Type} (dialect : Dialect) (ofName? : String → Option α) :
    Document → Option α
  | text name => ofName? name
  | table [(name, mark)] => if dialect.isChoiceMark mark then ofName? name else none
  | _ => none

/-- The fields of a structured value. -/
inductive Record where
  | named (entries : List (String × Document))
  | listed (items : List Document)

/-- The fields that a document gives to a structured value of `count` fields. -/
def record (dialect : Dialect) (count : Nat) : Document → Option Record
  | list items =>
    if items.length ≤ count || dialect.allowsExtraItems then some (.listed items) else none
  | document => document.entries?.map .named

namespace Record

/-- What a record gives to the field of a name and a place. -/
def find? (record : Record) (name : String) (place : Nat) : Option Document :=
  match record with
  | named entries => lookup name entries
  | listed items => items[place]?

/-- A field that must be given. -/
def required {α : Type} (record : Record) (name : String) (place : Nat)
    (read : Document → Option α) : Option α := do
  read (← record.find? name place)

/-- A field with a default. -/
def withDefault {α : Type} (record : Record) (name : String) (place : Nat)
    (read : Document → Option α) (default : α) : Option α :=
  match record.find? name place with
  | some document => read document
  | none => some default

/-- A field that may be missing by name or null; a list must give it all the same. -/
def optional {α : Type} (record : Record) (name : String) (place : Nat)
    (read : Document → Option α) : Option (Option α) :=
  match record, record.find? name place with
  | _, some document => readOptional read document
  | .named _, none => some none
  | .listed _, none => none

end Record

end Document

end ExtensionCatalog
