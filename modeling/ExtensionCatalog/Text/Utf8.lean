/-
**UTF-8: encoding, strict decoding and decoding with replacement.**

Decoding is one pass that yields a character, or a gap for every maximal part that begins no
character. Strict decoding refuses a text with a gap; lenient decoding shows each gap as one
replacement character.

* `pieces`: the pass;
* `decode?`, `decodeLossy`: the two readings of it.
-/

import ExtensionCatalog.Bytes

namespace ExtensionCatalog.Text.Utf8

/-- The bytes of a text. -/
def encode (text : List Char) : Bytes := text.flatMap String.utf8EncodeChar

/-- A byte of the form `10xxxxxx`. -/
def isContinuation (byte : UInt8) : Bool := 0x80 ≤ byte && byte ≤ 0xBF

/-- Whether `second` may follow the lead byte of a three-byte character: no overlong forms and no
surrogates. -/
def secondOfThree (lead second : UInt8) : Bool :=
  if lead = 0xE0 then 0xA0 ≤ second && second ≤ 0xBF
  else if lead = 0xED then 0x80 ≤ second && second ≤ 0x9F
  else isContinuation second

/-- Whether `second` may follow the lead byte of a four-byte character: no overlong forms and
nothing above the last code point. -/
def secondOfFour (lead second : UInt8) : Bool :=
  if lead = 0xF0 then 0x90 ≤ second && second ≤ 0xBF
  else if lead = 0xF4 then 0x80 ≤ second && second ≤ 0x8F
  else isContinuation second

/-- The code point spelled by the payload of a lead byte and its continuation bytes. -/
def assemble (lead : Nat) (tail : Bytes) : Char :=
  Char.ofNat (tail.foldl (fun code byte => code * 64 + byte.toNat % 64) lead)

/-- The characters of a byte string, with `none` for every maximal part that begins no
character. -/
def pieces : Bytes → List (Option Char)
  | [] => []
  | lead :: rest =>
    if lead < 0x80 then some (Char.ofNat lead.toNat) :: pieces rest
    else if 0xC2 ≤ lead && lead ≤ 0xDF then
      match rest with
      | second :: more =>
        if isContinuation second then some (assemble (lead.toNat % 32) [second]) :: pieces more
        else none :: pieces (second :: more)
      | [] => [none]
    else if 0xE0 ≤ lead && lead ≤ 0xEF then
      match rest with
      | second :: more =>
        if secondOfThree lead second then
          match more with
          | third :: final =>
            if isContinuation third then
              some (assemble (lead.toNat % 16) [second, third]) :: pieces final
            else none :: pieces (third :: final)
          | [] => [none]
        else none :: pieces (second :: more)
      | [] => [none]
    else if 0xF0 ≤ lead && lead ≤ 0xF4 then
      match rest with
      | second :: more =>
        if secondOfFour lead second then
          match more with
          | third :: other =>
            if isContinuation third then
              match other with
              | fourth :: final =>
                if isContinuation fourth then
                  some (assemble (lead.toNat % 8) [second, third, fourth]) :: pieces final
                else none :: pieces (fourth :: final)
              | [] => [none]
            else none :: pieces (third :: other)
          | [] => [none]
        else none :: pieces (second :: more)
      | [] => [none]
    else none :: pieces rest

/-- The text of a byte string, if every part of it is a character. -/
def decode? (bytes : Bytes) : Option (List Char) := (pieces bytes).mapM id

/-- The text of a byte string, each gap shown as U+FFFD. -/
def decodeLossy (bytes : Bytes) : List Char := (pieces bytes).map (·.getD (Char.ofNat 0xFFFD))

end ExtensionCatalog.Text.Utf8
