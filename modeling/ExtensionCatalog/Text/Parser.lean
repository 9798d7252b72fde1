/-
**Parsers of text.**

A parser takes characters off the front of a text or fails, and what fails has taken nothing.

* `many`: as many uses as succeed, each taking a character at least;
* `separated`: one or more uses with something between neighbours.
-/

namespace ExtensionCatalog.Text

/-- A function that takes characters off the front of a text. -/
abbrev Parser := StateT (List Char) Option

namespace Parser

variable {α β : Type}

/-- The next character. -/
def next : Parser Char
  | [] => none
  | c :: rest => some (c, rest)

/-- The next character, if it is of a kind. -/
def satisfying (kind : Char → Bool) : Parser Char
  | [] => none
  | c :: rest => if kind c then some (c, rest) else none

/-- The given text. -/
def exactly (text : String) : Parser Unit := fun input =>
  if text.toList.isPrefixOf input then some ((), input.drop text.length) else none

/-- The characters of a kind at the front, none or more. -/
def run (kind : Char → Bool) : Parser (List Char) := fun input =>
  some (input.takeWhile kind, input.dropWhile kind)

/-- The characters of a kind at the front, one or more. -/
def run1 (kind : Char → Bool) : Parser (List Char) := do
  let first ← satisfying kind
  return first :: (← run kind)

/-- Succeed at the end of the text only. -/
def finish : Parser Unit := fun input => if input.isEmpty then some ((), []) else none

/-- What the uses of a parser yield, and the rest after them. -/
def manyFrom (parser : Parser α) (input : List Char) : List α × List Char :=
  match parser input with
  | some (value, rest) =>
    if rest.length < input.length then
      let (values, final) := manyFrom parser rest
      (value :: values, final)
    else ([], input)
  | none => ([], input)
termination_by input.length

/-- What the uses of a parser yield, as many as succeed and take a character. -/
def many (parser : Parser α) : Parser (List α) := fun input => some (manyFrom parser input)

/-- What one or more uses yield, with `between` between neighbours. -/
def separated (parser : Parser α) (between : Parser β) : Parser (List α) := do
  let first ← parser
  let others ← many do
    let _ ← between
    parser
  return first :: others

end Parser

end ExtensionCatalog.Text
