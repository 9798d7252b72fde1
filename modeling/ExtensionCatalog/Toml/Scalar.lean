/-
**Keys, strings, numbers and dates of TOML texts.**

* `string`: the four kinds of strings;
* `number`: integers of sixty-four bits, and floats that are not too large;
* `moment`: dates and times, in one spelling each;
* `key`: a dotted key.
-/

import ExtensionCatalog.Document
import ExtensionCatalog.Text.Numeral
import ExtensionCatalog.Text.Parser

namespace ExtensionCatalog.Toml

open Text Text.Parser

/-! ### White space -/

/-- A space or a tab. -/
def isSpace (c : Char) : Bool := c == ' ' || c == '\t'

/-- A character that may stand in comments and strings, ends of lines apart. -/
def isPrintable (c : Char) : Bool := c == '\t' || (' ' ≤ c && c ≤ '~') || c.toNat ≥ 0x80

def spaces : Parser Unit := do
  let _ ← run isSpace

/-- The end of a line. -/
def newline : Parser Unit := exactly "\n" <|> exactly "\r\n"

/-- A comment up to the end of its line. -/
def comment : Parser Unit := do
  exactly "#"
  let _ ← run isPrintable

/-- White space, ends of lines and comments, none or more. -/
def gap : Parser Unit := do
  let _ ← many ((do let _ ← run1 isSpace) <|> newline <|> do
    comment
    newline)

/-- The rest of a line with nothing in it but a comment. -/
def lineEnd : Parser Unit := do
  spaces
  let _ ← optional comment
  newline <|> finish

/-! ### Strings -/

/-- The character of a number of hexadecimal digits. -/
def hexCharacter (count : Nat) : Parser Char := fun input => do
  let digits := input.take count
  if digits.length < count then none
  else do
    let code ← Numeral.digits? 16 digits
    if code.isValidChar then some (Char.ofNat code, input.drop count) else none

/-- The character of an escape, after the backslash. -/
def escape : Parser Char := do
  match ← next with
  | 'b' => return '\x08'
  | 't' => return '\t'
  | 'n' => return '\n'
  | 'f' => return '\x0c'
  | 'r' => return '\r'
  | '"' => return '"'
  | '\\' => return '\\'
  | 'u' => hexCharacter 4
  | 'U' => hexCharacter 8
  | _ => failure

/-- A string on one line in which escapes count. -/
def basicString : Parser String := do
  exactly "\""
  let text ← many do
    match ← satisfying fun c => isPrintable c && c != '"' with
    | '\\' => escape
    | c => return c
  exactly "\""
  return String.ofList text

/-- A string on one line in which every character stands for itself. -/
def literalString : Parser String := do
  exactly "'"
  let text ← run fun c => isPrintable c && c != '\''
  exactly "'"
  return String.ofList text

/-- The number of quotes at the front of a text. -/
def quotesAhead (quote : Char) (input : List Char) : Nat := (input.takeWhile (· == quote)).length

/-- Fewer than three quotes inside a string of several lines. -/
def innerQuotes (quote : Char) : Parser (List Char) := fun input =>
  let count := quotesAhead quote input
  if count = 0 ∨ 3 ≤ count then none else some (List.replicate count quote, input.drop count)

/-- Up to two quotes before the three that end a string of several lines. -/
def lastQuotes (quote : Char) : Parser (List Char) := fun input =>
  let count := min (quotesAhead quote input - 3) 2
  some (List.replicate count quote, input.drop count)

/-- The end of a line inside a string. -/
def innerNewline : Parser (List Char) := do
  newline
  return ['\n']

/-- A backslash at the end of a line: it hides white space and ends of lines up to the next
character. -/
def hiddenNewline : Parser (List Char) := do
  exactly "\\"
  spaces
  newline
  let _ ← many ((do let _ ← run1 isSpace) <|> newline)
  return []

/-- A string of several lines in which escapes count. -/
def basicLines : Parser String := do
  exactly "\"\"\""
  let _ ← optional newline
  let text ← many <|
    run1 (fun c => isPrintable c && c != '"' && c != '\\') <|> innerNewline <|> hiddenNewline <|>
      (do
        exactly "\\"
        return [← escape]) <|> innerQuotes '"'
  let last ← lastQuotes '"'
  exactly "\"\"\""
  return String.ofList (text.flatten ++ last)

/-- A string of several lines in which every character stands for itself. -/
def literalLines : Parser String := do
  exactly "'''"
  let _ ← optional newline
  let text ← many <|
    run1 (fun c => isPrintable c && c != '\'') <|> innerNewline <|> innerQuotes '\''
  let last ← lastQuotes '\''
  exactly "'''"
  return String.ofList (text.flatten ++ last)

def string : Parser String := basicLines <|> basicString <|> literalLines <|> literalString

/-! ### Keys -/

/-- A character of a key without quotes. -/
def isBareKey (c : Char) : Bool := c.isAlphanum || c == '_' || c == '-'

def simpleKey : Parser String :=
  basicString <|> literalString <|> do return String.ofList (← run1 isBareKey)

/-- The longest dotted key, and how deep values can be nested in each other. -/
def deepest : Nat := 79

/-- A dotted key: the names before the last one, and the last one. -/
def key : Parser (List String × String) := do
  let names ← separated (do
    spaces
    let name ← simpleKey
    spaces
    return name) (exactly ".")
  match names.getLast? with
  | some name => if names.length ≤ deepest then return (names.dropLast, name) else failure
  | none => failure

/-! ### Numbers -/

def isDigitOf (base : Nat) (c : Char) : Bool :=
  match Numeral.digitValue? c with
  | some digit => digit < base
  | none => false

/-- Digits with single underscores between them. -/
def digits (base : Nat) : Parser (List Char) := do
  let first ← satisfying (isDigitOf base)
  let others ← many do
    let _ ← optional (exactly "_")
    satisfying (isDigitOf base)
  return first :: others

def sign : Parser Char := do
  return (← optional (satisfying fun c => c == '+' || c == '-')).getD '+'

/-- Decimal digits without leading zero. -/
def decimal : Parser (List Char) := fun input => do
  let (text, rest) ← digits 10 input
  match text with
  | '0' :: _ :: _ => some (['0'], input.drop 1)
  | _ => some (text, rest)

/-- The number that digits spell. -/
def valueOf (base : Nat) (text : List Char) : Nat := (Numeral.digits? base text).getD 0

/-- An integer that sixty-four bits can hold. -/
def bounded (value : Int) : Parser Int :=
  if -0x8000000000000000 ≤ value ∧ value < 0x8000000000000000 then return value else failure

def integer : Parser Int :=
  (do
    exactly "0x"
    bounded (valueOf 16 (← digits 16))) <|>
  (do
    exactly "0o"
    bounded (valueOf 8 (← digits 8))) <|>
  (do
    exactly "0b"
    bounded (valueOf 2 (← digits 2))) <|>
  do
    let mark ← sign
    let magnitude : Int := valueOf 10 (← decimal)
    bounded (if mark = '-' then -magnitude else magnitude)

/-- Whether the decimal `mantissa * 10 ^ exponent` rounds to infinity in sixty-four bits: it lies
half a unit of the last place or more above the largest number. -/
def isTooLarge (mantissa : Nat) (exponent : Int) : Bool :=
  let length : Int := (toString mantissa).length
  let bound := Nat.pow 2 1024 - Nat.pow 2 970
  if mantissa = 0 ∨ length + exponent ≤ 308 then false
  else if length + exponent > 309 then true
  else bound * Nat.pow 10 (-exponent).toNat ≤ mantissa * Nat.pow 10 exponent.toNat

/-- The exponent of a float. -/
def exponent : Parser Int := do
  let _ ← satisfying fun c => c == 'e' || c == 'E'
  let mark ← sign
  let magnitude : Int := valueOf 10 (← digits 10)
  return if mark = '-' then -magnitude else magnitude

/-- The digits after the point of a float. -/
def fraction : Parser (List Char) := do
  exactly "."
  digits 10

/-- A float: digits with a fraction, an exponent, or both. -/
def decimalFloat : Parser String := do
  let mark ← sign
  let whole ← decimal
  let (part, power) ← (do return ([], ← exponent)) <|> do
    let part ← fraction
    return (part, (← optional exponent).getD 0)
  if mark = '+' && isTooLarge (valueOf 10 (whole ++ part)) (power - part.length) then failure
  else return s!"{String.ofList [mark]}{String.ofList (whole ++ part)}e{power - part.length}"

def specialFloat : Parser String := do
  let mark ← sign
  let name ← (do exactly "inf"; return "inf") <|> do exactly "nan"; return "nan"
  return String.ofList [mark] ++ name

def number : Parser Document :=
  (do return .float (← decimalFloat)) <|> (do return .float (← specialFloat)) <|>
    do return .integer (← integer)

/-! ### Dates and times -/

/-- A decimal number of so many digits in a range. -/
def numeral (width least greatest : Nat) : Parser Nat := fun input => do
  let text := input.take width
  if text.length < width then none
  else do
    let value ← Numeral.digits? 10 text
    if least ≤ value ∧ value ≤ greatest then some (value, input.drop width) else none

/-- The number of days of a month. -/
def daysOf (year month : Nat) : Nat :=
  if month = 2 then
    if year % 4 = 0 ∧ (year % 100 ≠ 0 ∨ year % 400 = 0) then 29 else 28
  else if month = 4 ∨ month = 6 ∨ month = 9 ∨ month = 11 then 30 else 31

/-- A number with at least so many digits. -/
def padded (width value : Nat) : String := String.ofList (Numeral.padded 10 width value)

def date : Parser String := do
  let year ← numeral 4 0 9999
  exactly "-"
  let month ← numeral 2 1 12
  exactly "-"
  let day ← numeral 2 1 31
  if day ≤ daysOf year month then return s!"{padded 4 year}-{padded 2 month}-{padded 2 day}"
  else failure

/-- The fraction of a second, to the nanosecond and without trailing zeros. -/
def secondFraction : Parser String := do
  exactly "."
  let text ← run1 (isDigitOf 10)
  let kept := ((text.take 9).reverse.dropWhile (· == '0')).reverse
  return if kept.isEmpty then "" else "." ++ String.ofList kept

def time : Parser String := do
  let hour ← numeral 2 0 23
  exactly ":"
  let minute ← numeral 2 0 59
  exactly ":"
  let second ← numeral 2 0 60
  let part ← optional secondFraction
  return s!"{padded 2 hour}:{padded 2 minute}:{padded 2 second}" ++ part.getD ""

/-- The distance of a local time from universal time. -/
def offset : Parser String :=
  (do
    let _ ← satisfying fun c => c == 'Z' || c == 'z'
    return "Z") <|> do
  let mark ← satisfying fun c => c == '+' || c == '-'
  let hour ← numeral 2 0 23
  exactly ":"
  let minute ← numeral 2 0 59
  let mark := if hour = 0 ∧ minute = 0 then '+' else mark
  return String.ofList [mark] ++ s!"{padded 2 hour}:{padded 2 minute}"

/-- A date, a time, or both; with both, an offset may follow. -/
def moment : Parser String :=
  (do
    let day ← date
    let clock ← optional do
      let _ ← satisfying fun c => c == 'T' || c == 't' || c == ' '
      let clock ← time
      return "T" ++ clock ++ (← optional offset).getD ""
    return day ++ clock.getD "") <|> time

end ExtensionCatalog.Toml
