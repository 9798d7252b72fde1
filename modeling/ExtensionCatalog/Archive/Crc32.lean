/-
**The checksum of archive members.**

The cyclic redundancy check of 32 bits with the reflected polynomial `0xEDB88320`, started from and
finished with an inversion.
-/

import ExtensionCatalog.Bytes

namespace ExtensionCatalog.Archive.Crc32

def polynomial : UInt32 := 0xEDB88320

/-- Divide by the polynomial for one bit. -/
def shift (register : UInt32) : UInt32 :=
  if register &&& 1 = 1 then (register >>> 1) ^^^ polynomial else register >>> 1

/-- The register after one more byte. -/
def absorb (register : UInt32) (byte : UInt8) : UInt32 :=
  Nat.repeat shift 8 (register ^^^ byte.toUInt32)

/-- The register after some bytes. -/
def register (start : UInt32) (bytes : Bytes) : UInt32 := bytes.foldl absorb start

/-- The checksum of bytes. -/
def checksum (bytes : Bytes) : UInt32 := ~~~ register 0xFFFFFFFF bytes

end ExtensionCatalog.Archive.Crc32
