/-
**JSON text of documents.**

The text is indented by two spaces for each list or object around a value; empty lists and objects
take no line of their own. Characters are written as they are but for the quote, the backslash and
control characters.

* `escapeChar`: one character of a string;
* `renderAt`: a value at a depth;
* `render`: a whole text.
-/

import ExtensionCatalog.Document
import ExtensionCatalog.Text.Numeral

namespace ExtensionCatalog.Json

/-- One character of a string as it is written. -/
def escapeChar : Char → List Char
  | '"' => ['\\', '"']
  | '\\' => ['\\', '\\']
  | '\x08' => ['\\', 'b']
  | '\x0c' => ['\\', 'f']
  | '\n' => ['\\', 'n']
  | '\r' => ['\\', 'r']
  | '\t' => ['\\', 't']
  | c =>
    if c.toNat < 0x20 then
      ['\\', 'u'] ++ (Text.Numeral.padded 16 4 c.toNat).map Char.toLower
    else [c]

/-- A string between quotes. -/
def renderText (text : String) : List Char := '"' :: text.toList.flatMap escapeChar ++ ['"']

/-- The space before a line. -/
def indentation (depth : Nat) : List Char := List.replicate (2 * depth) ' '

mutual

/-- A value whose first line stands at a depth. -/
def renderAt (depth : Nat) : Document → List Char
  | .null => "null".toList
  | .boolean value => (if value then "true" else "false").toList
  | .integer value => (toString value).toList
  | .float text => text.toList
  | .text value => renderText value
  | .moment text => renderText text
  | .list [] => ['[', ']']
  | .list (first :: rest) =>
    '[' :: '\n' :: indentation (depth + 1) ++ renderAt (depth + 1) first ++
      renderItems (depth + 1) rest ++ '\n' :: indentation depth ++ [']']
  | .table [] => ['\x7b', '\x7d']
  | .table (first :: rest) =>
    '\x7b' :: '\n' :: indentation (depth + 1) ++ renderEntry (depth + 1) first ++
      renderEntries (depth + 1) rest ++ '\n' :: indentation depth ++ ['\x7d']

/-- The items of a list after the first. -/
def renderItems (depth : Nat) : List Document → List Char
  | [] => []
  | item :: rest =>
    ',' :: '\n' :: indentation depth ++ renderAt depth item ++ renderItems depth rest

/-- One entry of an object. -/
def renderEntry (depth : Nat) : String × Document → List Char
  | (key, value) => renderText key ++ ':' :: ' ' :: renderAt depth value

/-- The entries of an object after the first. -/
def renderEntries (depth : Nat) : List (String × Document) → List Char
  | [] => []
  | entry :: rest =>
    ',' :: '\n' :: indentation depth ++ renderEntry depth entry ++ renderEntries depth rest

end

/-- The text of a document. -/
def render (document : Document) : String := String.ofList (renderAt 0 document)

end ExtensionCatalog.Json
