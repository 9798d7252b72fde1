/-
**Reading a member of an archive.**

A member is found by its name, the last one of a name standing for all of them. Its content is
checked against the checksum of the directory.

* `Member.content?`: the content of a member;
* `read?`: the content of the member of a name;
* `contents`: the contents of all members.
-/

import ExtensionCatalog.Archive.Crc32
import ExtensionCatalog.Archive.Directory
import ExtensionCatalog.Archive.Inflate

namespace ExtensionCatalog.Archive

/-- Why a member of an archive cannot be read. -/
inductive ReadFault where
  | directory (fault : DirectoryFault)
  /-- The header of the member is damaged, or its form is unsupported. -/
  | member
  /-- The content is damaged. -/
  | content
deriving DecidableEq

/-- The length of the header of a member, without name and extra fields. -/
def headerLength : Nat := 30

/-- The stored content behind the header of a member; the end of the archive may cut it off. -/
def Member.stored? (member : Member) (archive : Bytes) : Option Bytes := do
  let header := archive.drop member.position
  if (← signature? header) != localSignature then none
  let (lengths, _) ← Bytes.takeExact 4 (header.drop 26)
  let nameLength := Bytes.littleEndian (lengths.take 2)
  let extraLength := Bytes.littleEndian (lengths.drop 2)
  return (header.drop (headerLength + nameLength + extraLength)).take member.size

/-- Restore the content of a member. -/
def Method.restore? : Method → Bytes → Option Bytes
  | stored, bytes => some bytes
  | deflated, bytes => inflate? bytes
  | unsupported, _ => none

/-- The content of a member. -/
def Member.content? (member : Member) (archive : Bytes) : Except ReadFault Bytes :=
  if member.isEncrypted || member.method = .unsupported then .error .member
  else
    match member.stored? archive with
    | none => .error .member
    | some bytes =>
      match member.method.restore? bytes with
      | none => .error .content
      | some content =>
        if Crc32.checksum content = member.checksum then .ok content else .error .content

/-- The contents of all members that can be read. -/
def contents (archive : Bytes) : List Bytes :=
  match readDirectory archive with
  | .error _ => []
  | .ok members => members.filterMap fun member => (member.content? archive).toOption

/-- The content of the member of a name, if there is one. -/
def read? (archive : Bytes) (name : String) : Except ReadFault (Option Bytes) :=
  match readDirectory archive with
  | .error fault => .error (.directory fault)
  | .ok members =>
    match members.reverse.find? (·.name == name) with
    | none => .ok none
    | some member => (member.content? archive).map some

end ExtensionCatalog.Archive
