/-
**Properties documents: lines of keys and values.**

A document has one pair a line. A backslash escapes the character after it, `\u` four hexadecimal
digits of a code unit, and a line that ends in an odd number of backslashes goes on in the next
one. Blank lines and lines that start with `#` or `!` say nothing.

* `render`: the document of some pairs;
* `logicalLines`, `splitPair`, `unescape`: the three steps of reading;
* `parse`: the pairs of a document, a later line replacing an earlier one of the same key.
-/

import ExtensionCatalog.Error
import ExtensionCatalog.Sorted.Map
import ExtensionCatalog.Text.Blank
import ExtensionCatalog.Text.Lines
import ExtensionCatalog.Text.Numeral
import ExtensionCatalog.Text.Utf16

namespace ExtensionCatalog.Properties

/-! ### Writing -/

/-- The escape of a code unit. -/
def escapeUnit (unit : UInt16) : List Char := ['\\', 'u'] ++ Text.Numeral.padded 16 4 unit.toNat

/-- One character as it is written; `guarded` tells whether a space needs an escape. -/
def escapeChar (guarded : Bool) (c : Char) : List Char :=
  match c with
  | ' ' => if guarded then ['\\', ' '] else [' ']
  | '\\' => ['\\', '\\']
  | '\t' => ['\\', 't']
  | '\n' => ['\\', 'n']
  | '\r' => ['\\', 'r']
  | '\x0c' => ['\\', 'f']
  | '=' => ['\\', '=']
  | ':' => ['\\', ':']
  | '#' => ['\\', '#']
  | '!' => ['\\', '!']
  | c => if ' ' ≤ c && c ≤ '~' then [c] else (Text.Utf16.encodeChar c).flatMap escapeUnit

/-- A key as it is written: every space is escaped. -/
def escapeKey (text : List Char) : List Char := text.flatMap (escapeChar true)

/-- A value as it is written: a space is escaped at the start only. -/
def escapeValue : List Char → List Char
  | [] => []
  | c :: rest => escapeChar true c ++ rest.flatMap (escapeChar false)

/-- The line of one pair. -/
def renderPair (pair : String × String) : List Char :=
  escapeKey pair.1.toList ++ '=' :: escapeValue pair.2.toList ++ ['\n']

/-- The document of some pairs. -/
def render (pairs : List (String × String)) : String :=
  String.ofList (pairs.flatMap renderPair)

/-! ### Lines -/

/-- Whether the next line goes on with this one: it ends in an odd number of backslashes. -/
def continues (line : List Char) : Bool := (line.reverse.takeWhile (· == '\\')).length % 2 == 1

/-- Whether a line without leading white space says nothing. -/
def isSilent : List Char → Bool
  | [] => true
  | c :: _ => c == '#' || c == '!'

/-- The logical lines of a document; `pending` is the part of a logical line read so far, if the
next line goes on with it. -/
def logicalLines : Option (List Char) → List (List Char) → List (List Char)
  | none, [] => []
  | some pending, [] => [pending]
  | none, line :: rest =>
    let start := Text.trimStart line
    if isSilent start then logicalLines none rest
    else if continues start then logicalLines (some start.dropLast) rest
    else start :: logicalLines none rest
  | some pending, line :: rest =>
    let longer := pending ++ Text.trimStart line
    if continues longer then logicalLines (some longer.dropLast) rest
    else longer :: logicalLines none rest

/-! ### Pairs -/

/-- What follows a key that ended at white space: one separator and white space are dropped. -/
def afterBlank (rest : List Char) : List Char :=
  match Text.trimStart rest with
  | '=' :: value => Text.trimStart value
  | ':' :: value => Text.trimStart value
  | value => value

/-- The key and the value of a logical line, still escaped. -/
def splitPair : List Char → List Char × List Char
  | [] => ([], [])
  | '\\' :: c :: rest => ('\\' :: c :: (splitPair rest).1, (splitPair rest).2)
  | c :: rest =>
    if c = '=' ∨ c = ':' then ([], Text.trimStart rest)
    else if Text.isBlank c then ([], afterBlank (c :: rest))
    else (c :: (splitPair rest).1, (splitPair rest).2)

/-! ### Escapes -/

/-- The text of a run of code units. -/
def flush (units : List UInt16) : Except PropertiesFault (List Char) :=
  match Text.Utf16.decode? units with
  | some text => .ok text
  | none => .error .unpairedSurrogate

/-- The code unit of the digits after `\u`. -/
def unitOf (digits : List Char) : Except PropertiesFault UInt16 :=
  match Text.Numeral.read? 16 digits with
  | some code => .ok code.toUInt16
  | none => .error (.malformedEscape (String.ofList digits))

/-- The character that an escaped character stands for. -/
def escaped : Char → Char
  | 't' => '\t'
  | 'n' => '\n'
  | 'r' => '\r'
  | 'f' => '\x0c'
  | c => c

/-- Undo the escapes of a text; `units` are the code units read just before. -/
def unescapeAfter (units : List UInt16) : List Char → Except PropertiesFault (List Char)
  | [] => flush units
  | '\\' :: rest =>
    match rest with
    | [] => flush units
    | 'u' :: digits =>
      match digits with
      | a :: b :: c :: d :: more => do
        let unit ← unitOf [a, b, c, d]
        unescapeAfter (units ++ [unit]) more
      | few => do
        let unit ← unitOf few
        flush (units ++ [unit])
    | c :: more => do
      let start ← flush units
      return start ++ escaped c :: (← unescapeAfter [] more)
  | c :: rest => do
    let start ← flush units
    return start ++ c :: (← unescapeAfter [] rest)

/-- Undo the escapes of a text. -/
def unescape (text : List Char) : Except PropertiesFault (List Char) := unescapeAfter [] text

/-! ### Documents -/

/-- The pair that a logical line says. -/
def readPair (line : List Char) : Except PropertiesFault (String × String) := do
  let (key, value) := splitPair line
  return (String.ofList (← unescape key), String.ofList (← unescape value))

/-- The pairs of a document, in order. -/
def readPairs (text : String) : Except PropertiesFault (List (String × String)) :=
  (logicalLines none (Text.lines text.toList)).mapM readPair

/-- The keys and values of a document. -/
def parse (text : String) : Except Error (SortedMap String String) :=
  match readPairs text with
  | .ok pairs => .ok (.ofList pairs)
  | .error fault => .error (.invalidProperties fault)

end ExtensionCatalog.Properties
