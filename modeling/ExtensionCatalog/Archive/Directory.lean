/-
**The directory of an archive.**

An archive ends with a record that tells where its directory stands and how many members it lists.
The record is looked for backwards, since a comment may follow it; what stands in front of the
archive shifts all positions by the same distance. A record for large archives may stand in front
of it and then takes its place.

* `Member`: what the directory says of one member;
* `readDirectory`: the members of an archive, in the order of the directory.
-/

import ExtensionCatalog.Bytes
import ExtensionCatalog.Text.Codepage
import ExtensionCatalog.Text.Utf8

namespace ExtensionCatalog.Archive

/-- Why the directory of an archive cannot be read. -/
inductive DirectoryFault where
  /-- The bytes are no archive, or one of an unsupported form. -/
  | unreadable (reason : String)
  /-- A record goes on beyond the end. -/
  | truncated
deriving DecidableEq

namespace DirectoryFault

def noRoom : DirectoryFault := unreadable "Invalid zip header"

def noEnd : DirectoryFault := unreadable "Could not find central directory end"

def severalDisks : DirectoryFault :=
  unreadable "Support for multi-disk files is not implemented"

def badPosition : DirectoryFault := unreadable "Invalid central directory size or offset"

def noRoomForLarge : DirectoryFault :=
  unreadable "File cannot contain ZIP64 central directory end"

def noLargeEnd : DirectoryFault :=
  unreadable "Could not find ZIP64 central directory end"

def outOfReach : DirectoryFault :=
  unreadable "Could not seek to start of central directory"

def badMember : DirectoryFault := unreadable "Invalid Central Directory header"

def badShift : DirectoryFault := unreadable "Archive header is too large"

def cipherLength : DirectoryFault :=
  unreadable "AES extra data field has an unsupported length"

def cipherVendor : DirectoryFault := unreadable "Invalid AES vendor"

def cipherVersion : DirectoryFault := unreadable "Invalid AES vendor version"

def cipherStrength : DirectoryFault := unreadable "Invalid AES encryption strength"

def cipherMissing : DirectoryFault :=
  unreadable "AES encryption without AES extra data field"

end DirectoryFault

/-- A reader of records. -/
abbrev RecordReader := StateT Bytes (Except DirectoryFault)

namespace RecordReader

def take (count : Nat) : RecordReader Bytes := fun input =>
  match Bytes.takeExact count input with
  | some result => .ok result
  | none => .error .truncated

/-- A number of `width` bytes, the least significant one first. -/
def number (width : Nat) : RecordReader Nat := do
  return Bytes.littleEndian (← take width)

/-- Numbers of some widths. -/
def numbers (widths : List Nat) : RecordReader (List Nat) := widths.mapM number

end RecordReader

open RecordReader

def localSignature : Nat := 0x04034b50

def memberSignature : Nat := 0x02014b50

def endSignature : Nat := 0x06054b50

def largeEndSignature : Nat := 0x06064b50

def largeLocatorSignature : Nat := 0x07064b50

/-- The number in a record that stands for one given elsewhere. -/
def elsewhere : Nat := 0xffffffff

/-- The positions that a record can state lie below this number. -/
def positionLimit : Nat := 0x10000000000000000

/-- The positions that a file can have lie below this number. -/
def reachLimit : Nat := 0x8000000000000000

/-! ### The end of the directory -/

/-- The record at the end of an archive. -/
structure EndRecord where
  disk : Nat
  directoryDisk : Nat
  countHere : Nat
  count : Nat
  size : Nat
  offset : Nat
  commentLength : Nat

/-- Whether a number of the record is too large for it, so that it may be given elsewhere. -/
def EndRecord.isOverfull (record : EndRecord) : Bool :=
  [record.disk, record.directoryDisk, record.countHere, record.count].contains 0xffff ||
    [record.size, record.offset].contains elsewhere

/-- The length of the record at the end, without comment. -/
def endLength : Nat := 22

/-- The length of the longest comment behind the record at the end. -/
def longestComment : Nat := 0xffff

/-- Read the record at the end behind its signature. -/
def readEndRecord : RecordReader EndRecord := do
  let disk ← number 2
  let directoryDisk ← number 2
  let countHere ← number 2
  let count ← number 2
  let size ← number 4
  let offset ← number 4
  let commentLength ← number 2
  let _ ← take commentLength
  return { disk, directoryDisk, countHere, count, size, offset, commentLength }

/-- The signature that bytes begin with. -/
def signature? (bytes : Bytes) : Option Nat :=
  (Bytes.takeExact 4 bytes).map fun (signature, _) => Bytes.littleEndian signature

/-- The last position from `first` to `last` at which the record at the end begins; the bytes are
those from `first` on, and `found` is the last such position before. -/
def findEnd (last : Nat) : Nat → Option Nat → Bytes → Option Nat
  | _, found, [] => found
  | first, found, byte :: rest =>
    let begins := first ≤ last && signature? (byte :: rest) == some endSignature
    findEnd last (first + 1) (if begins then some first else found) rest

/-- The position of the record at the end. -/
def endPosition (bytes : Bytes) : Except DirectoryFault Nat :=
  if bytes.length < endLength then .error .noRoom
  else
    let first := bytes.length - (endLength + longestComment)
    match findEnd (bytes.length - endLength) first none (bytes.drop first) with
    | some position => .ok position
    | none => .error .noEnd

/-- Where the directory stands. -/
structure Placement where
  /-- How far all positions are shifted. -/
  shift : Nat
  start : Nat
  count : Nat

/-- The placement that the record at the end gives. -/
def EndRecord.placement (record : EndRecord) (position : Nat) : Except DirectoryFault Placement :=
  if record.size + record.offset ≤ position then
    .ok ⟨position - record.size - record.offset, position - record.size, record.countHere⟩
  else .error .badPosition

/-- The length of the locator of the record for large archives. -/
def locatorLength : Nat := 20

/-- The least length of the record for large archives and its locator. -/
def largeLength : Nat := 60

/-- The disk and the position of the record for large archives, if its locator stands in front of
the record at the end. -/
def readLocator (bytes : Bytes) (record : EndRecord) : Except DirectoryFault (Option (Nat × Nat)) :=
  let tail := locatorLength + endLength + record.commentLength
  if bytes.length < tail then .ok none
  else
    let reader : RecordReader (Option (Nat × Nat)) := do
      if (← number 4) != largeLocatorSignature then return none
      let disk ← number 4
      let position ← number 8
      let _ ← number 4
      return some (disk, position)
    reader.run' (bytes.drop (bytes.length - tail))

/-- The record for large archives, looked for from the position stated by its locator up to
`last`; `shift` counts the positions passed. -/
def readLargeRecord (stated last : Nat) (shift : Nat) (bytes : Bytes) :
    Except DirectoryFault Placement := do
  if stated + shift ≤ last then
    let (signature, rest) ← (number 4).run bytes
    if signature = largeEndSignature then
      let fields ← (numbers [8, 2, 2, 4, 4, 8, 8, 8, 8]).run' rest
      match fields with
      | [_, _, _, disk, directoryDisk, _, count, _, offset] =>
        if disk != directoryDisk then throw .severalDisks
        if offset + shift ≥ positionLimit then throw .badPosition
        return ⟨shift, offset + shift, count⟩
      | _ => throw .truncated
    else
      match bytes with
      | _ :: rest => readLargeRecord stated last (shift + 1) rest
      | [] => throw .truncated
  else throw .noLargeEnd
termination_by structural bytes

/-- Where the directory of an archive stands. -/
def placement (bytes : Bytes) : Except DirectoryFault Placement := do
  let position ← endPosition bytes
  let record ← readEndRecord.run' (bytes.drop (position + 4))
  if !record.isOverfull && record.disk != record.directoryDisk then throw .severalDisks
  match ← readLocator bytes record with
  | none => record.placement position
  | some (disk, stated) =>
    if !record.isOverfull && record.disk != disk then throw .severalDisks
    if position < largeLength then throw .noRoomForLarge
    readLargeRecord stated (position - largeLength) 0 (bytes.drop stated)

/-! ### Members -/

/-- How the content of a member is stored. -/
inductive Method where
  | stored
  | deflated
  | unsupported
deriving DecidableEq

/-- The number of the method that stands for encryption with a cipher of its own. -/
def cipherMethod : Nat := 99

def Method.ofNumber : Nat → Method
  | 0 => stored
  | 8 => deflated
  | _ => unsupported

/-- What the directory says of one member. -/
structure Member where
  name : String
  method : Method
  isEncrypted : Bool
  checksum : UInt32
  /-- The length of the stored content. -/
  size : Nat
  /-- The position of the header in front of the content. -/
  position : Nat
deriving DecidableEq

/-- What the record of a member says before its extra fields are read. -/
structure Listing where
  method : Nat
  size : Nat
  fullSize : Nat
  position : Nat
  /-- Whether an extra field names a cipher. -/
  hasCipher : Bool

/-- The numbers of a listing that an extra field may give instead, in the order of that field. -/
def Listing.largeNumbers : List ((Listing → Nat) × (Nat → Listing → Listing)) :=
  [(fullSize, fun number listing => { listing with fullSize := number }),
    (size, fun number listing => { listing with size := number }),
    (position, fun number listing => { listing with position := number })]

/-- Take the numbers given elsewhere from an extra field, and what is left of it; nothing is left
if it is cut off. -/
def takeLargeNumbers : List ((Listing → Nat) × (Nat → Listing → Listing)) → Listing → Bytes →
    Listing × Option Bytes
  | [], listing, bytes => (listing, some bytes)
  | (current, replace) :: more, listing, bytes =>
    if current listing = elsewhere then
      match Bytes.takeExact 8 bytes with
      | some (number, rest) =>
        takeLargeNumbers more (replace (Bytes.littleEndian number) listing) rest
      | none => (listing, none)
    else takeLargeNumbers more listing bytes

/-- Read the extra field of a member with a cipher. -/
def readCipher (listing : Listing) (length : Nat) : RecordReader Listing := do
  if length != 7 then throw .cipherLength
  let version ← number 2
  let vendor ← number 2
  let strength ← number 1
  let method ← number 2
  if vendor != 0x4541 then throw .cipherVendor
  if !([1, 2].contains version) then throw .cipherVersion
  if !([1, 2, 3].contains strength) then throw .cipherStrength
  return { listing with method, hasCipher := true }

/-- What a listing says after one extra field of a kind and a length, and what is left behind the
part of the field that was read and the part that its length leaves over. -/
def readExtra (kind length : Nat) (listing : Listing) (bytes : Bytes) :
    Except DirectoryFault (Listing × Option Bytes) :=
  if kind = 0x0001 then
    let (filled, rest?) := takeLargeNumbers Listing.largeNumbers listing bytes
    .ok (filled, rest?.map fun rest => rest.drop (length - (bytes.length - rest.length)))
  else if kind = 0x9901 then
    match (readCipher listing length).run bytes with
    | .ok (ciphered, rest) => .ok (ciphered, some (rest.drop length))
    | .error .truncated => .ok (listing, none)
    | .error fault => .error fault
  else .ok (listing, some (bytes.drop length))

/-- What a listing says after its extra fields; each takes four bytes at least, so the number of
bytes bounds their number. A field that is cut off is the last one. -/
def readExtras : Nat → Bytes → Listing → Except DirectoryFault Listing
  | 0, _, listing => .ok listing
  | fuel + 1, extras, listing =>
    match Bytes.takeExact 4 extras with
    | none => .ok listing
    | some (header, bytes) => do
      let kind := Bytes.littleEndian (header.take 2)
      let length := Bytes.littleEndian (header.drop 2)
      match ← readExtra kind length listing bytes with
      | (filled, some rest) => readExtras fuel rest filled
      | (filled, none) => return filled

/-- Read the record of a member; all positions are shifted. -/
def readMember (shift : Nat) : RecordReader Member := do
  if (← number 4) != memberSignature then throw .badMember
  let _ ← number 4
  let flags ← number 2
  let method ← number 2
  let _ ← number 4
  let checksum ← number 4
  let size ← number 4
  let fullSize ← number 4
  let nameLength ← number 2
  let extraLength ← number 2
  let commentLength ← number 2
  let _ ← number 8
  let position ← number 4
  let name ← take nameLength
  let extras ← take extraLength
  let _ ← take commentLength
  let listing ← readExtras (extras.length + 1) extras ⟨method, size, fullSize, position, false⟩
  if listing.method = cipherMethod && !listing.hasCipher then throw .cipherMissing
  if listing.position + shift ≥ positionLimit then throw .badShift
  return {
    name := String.ofList
      (if flags.testBit 11 then Text.Utf8.decodeLossy name else Text.Codepage.decode name)
    method := if listing.hasCipher then .unsupported else .ofNumber listing.method
    isEncrypted := flags.testBit 0
    checksum := checksum.toUInt32
    size := listing.size
    position := listing.position + shift }

/-- Read the records of `count` members. -/
def readMembers (shift : Nat) : Nat → RecordReader (List Member)
  | 0 => return []
  | count + 1 => do
    let first ← readMember shift
    let rest ← readMembers shift count
    return first :: rest

/-- The members of an archive, in the order of the directory. -/
def readDirectory (bytes : Bytes) : Except DirectoryFault (List Member) := do
  let placement ← placement bytes
  if placement.start ≥ reachLimit then throw .outOfReach
  (readMembers placement.shift placement.count).run' (bytes.drop placement.start)

end ExtensionCatalog.Archive
