/-
**Decoding of deflated data.**

A deflated stream is a sequence of blocks. A block holds bytes as they are, or literals and
references to earlier output, spelled in prefix codes. The last block is marked as such: a stream
that ends before the end of that block decodes to nothing, and what stands behind it is not read.

* `PrefixCode`: the code that a list of code lengths determines;
* `inflate?`: the bytes that a stream decodes to.
-/

import ExtensionCatalog.Bytes

namespace ExtensionCatalog.Archive

/-- What is left of the input, and what has been put out. -/
structure InflateState where
  input : List Bool
  output : Array UInt8

/-- A step of decoding; it fails at the end of the input and where the input is no deflated
data. -/
abbrev Inflater := StateT InflateState Option

namespace Inflater

/-- The bits of a byte, the least significant one first. -/
def byteBits (byte : UInt8) : List Bool := (List.range 8).map byte.toNat.testBit

def bit : Inflater Bool := do
  match (← get).input with
  | [] => failure
  | first :: rest =>
    modify fun state => { state with input := rest }
    return first

/-- The number in the next `count` bits, the least significant one first. -/
def bits : Nat → Inflater Nat
  | 0 => return 0
  | count + 1 => do
    let low ← bit
    let high ← bits count
    return low.toNat + 2 * high

def emit (byte : UInt8) : Inflater Unit :=
  modify fun state => { state with output := state.output.push byte }

/-- Repeat output that lies `distance` bytes back; before the first byte there are zeros. -/
def repeatOutput (distance : Nat) : Nat → Inflater Unit
  | 0 => return
  | count + 1 => do
    let output := (← get).output
    let byte := if distance ≤ output.size then output.getD (output.size - distance) 0 else 0
    emit byte
    repeatOutput distance count

end Inflater

open Inflater

/-- A prefix code: how many symbols have each code length from one on, and the symbols in the order
of their codes. -/
structure PrefixCode where
  counts : List Nat
  symbols : Array Nat

namespace PrefixCode

/-- The length of the longest codes. -/
def longest : Nat := 15

/-- The code in which the symbols `0, 1, …` have these lengths; a length of zero stands for no
code. Shorter codes come first, and codes of one length are in the order of their symbols. -/
def ofLengths (lengths : List Nat) : PrefixCode :=
  let lengthsInUse := List.range' 1 longest
  { counts := lengthsInUse.map lengths.count
    symbols := (lengthsInUse.flatMap fun length =>
      (lengths.zipIdx.filter (·.1 == length)).map (·.2)).toArray }

/-- How many bit strings of the greatest length begin with a code; the counts are those of the
lengths from some length up to the greatest one. -/
def weight : List Nat → Nat
  | [] => 0
  | count :: rest => count <<< rest.length + weight rest

/-- A code has to use up all bit strings, unless it has no symbol at all or one symbol with a code
of one bit. -/
def isAdmissible (code : PrefixCode) : Bool :=
  weight code.counts == 1 <<< longest ||
    (code.symbols.size ≤ 1 && code.counts.headD 0 == code.symbols.size)

/-- Read a symbol bit by bit. At each length, `value` is what was read, `first` the first code of
the length, and `index` the number of shorter codes. -/
def readFrom (code : PrefixCode) : List Nat → Nat → Nat → Nat → Inflater Nat
  | [], _, _, _ => failure
  | count :: rest, value, first, index => do
    let value := 2 * value + (← bit).toNat
    if value < first + count then
      match code.symbols[index + (value - first)]? with
      | some symbol => return symbol
      | none => failure
    else code.readFrom rest value (2 * (first + count)) (index + count)

def read (code : PrefixCode) : Inflater Nat := code.readFrom code.counts 0 0 0

end PrefixCode

/-- The codes of a block: for literals and lengths, and for distances. -/
structure BlockCodes where
  literals : PrefixCode
  distances : PrefixCode

/-- The codes of blocks that state none. -/
def BlockCodes.fixed : BlockCodes where
  literals := .ofLengths
    (List.replicate 144 8 ++ List.replicate 112 9 ++ List.replicate 24 7 ++ List.replicate 8 8)
  distances := .ofLengths (List.replicate 32 5)

/-- The least value of each length symbol, and how many bits are added to it. -/
def lengthRanges : List (Nat × Nat) :=
  [(3, 0), (4, 0), (5, 0), (6, 0), (7, 0), (8, 0), (9, 0), (10, 0), (11, 1), (13, 1), (15, 1),
    (17, 1), (19, 2), (23, 2), (27, 2), (31, 2), (35, 3), (43, 3), (51, 3), (59, 3), (67, 4),
    (83, 4), (99, 4), (115, 4), (131, 5), (163, 5), (195, 5), (227, 5), (258, 0)]

/-- The least value of each distance symbol, and how many bits are added to it. -/
def distanceRanges : List (Nat × Nat) :=
  [(1, 0), (2, 0), (3, 0), (4, 0), (5, 1), (7, 1), (9, 2), (13, 2), (17, 3), (25, 3), (33, 4),
    (49, 4), (65, 5), (97, 5), (129, 6), (193, 6), (257, 7), (385, 7), (513, 8), (769, 8),
    (1025, 9), (1537, 9), (2049, 10), (3073, 10), (4097, 11), (6145, 11), (8193, 12), (12289, 12),
    (16385, 13), (24577, 13)]

/-- Read the rest of a value whose symbol stands at a place of the table. -/
def readRange (ranges : List (Nat × Nat)) (place : Nat) : Inflater Nat := do
  match ranges[place]? with
  | some (least, width) => return least + (← bits width)
  | none => failure

/-- The symbol that ends a block. -/
def endOfBlock : Nat := 256

/-- Decode literals and references up to the end of the block; every symbol takes a bit at least,
so the number of bits bounds the number of symbols. -/
def readSymbols (codes : BlockCodes) : Nat → Inflater Unit
  | 0 => failure
  | fuel + 1 => do
    let symbol ← codes.literals.read
    if symbol = endOfBlock then return
    else if symbol < endOfBlock then
      emit symbol.toUInt8
    else
      let length ← readRange lengthRanges (symbol - endOfBlock - 1)
      let distance ← readRange distanceRanges (← codes.distances.read)
      repeatOutput distance length
    readSymbols codes fuel

/-- The order in which the lengths of the codes for code lengths are written. -/
def lengthOrder : List Nat := [16, 17, 18, 0, 8, 7, 9, 6, 10, 5, 11, 4, 12, 3, 13, 2, 14, 1, 15]

/-- Read `count` numbers of `width` bits. -/
def readNumbers (width : Nat) : Nat → Inflater (List Nat)
  | 0 => return []
  | count + 1 => do
    let first ← bits width
    let rest ← readNumbers width count
    return first :: rest

/-- Read code lengths until there are `total`; `known` are those read before, the last one
first. Repetitions may not lead beyond the total. -/
def readLengths (code : PrefixCode) (total : Nat) : Nat → List Nat → Inflater (List Nat)
  | 0, _ => failure
  | fuel + 1, known => do
    if known.length ≥ total then
      if known.length = total then return known.reverse else failure
    else
      let symbol ← code.read
      if symbol < 16 then readLengths code total fuel (symbol :: known)
      else if symbol = 16 then
        match known with
        | [] => failure
        | last :: _ =>
          let count ← bits 2
          readLengths code total fuel (List.replicate (3 + count) last ++ known)
      else if symbol = 17 then
        let count ← bits 3
        readLengths code total fuel (List.replicate (3 + count) 0 ++ known)
      else
        let count ← bits 7
        readLengths code total fuel (List.replicate (11 + count) 0 ++ known)

/-- Read the codes that a block states. -/
def readCodes : Inflater BlockCodes := do
  let literalCount := 257 + (← bits 5)
  let distanceCount := 1 + (← bits 5)
  let lengthCount := 4 + (← bits 4)
  if literalCount > 286 || distanceCount > 30 then failure
  let written ← readNumbers 3 lengthCount
  let places := lengthOrder.zip written
  let lengthCode := PrefixCode.ofLengths ((List.range 19).map fun place =>
    ((places.find? (·.1 == place)).map (·.2)).getD 0)
  if !lengthCode.isAdmissible then failure
  let total := literalCount + distanceCount
  let lengths ← readLengths lengthCode total (total + 1) []
  let codes : BlockCodes :=
    ⟨.ofLengths (lengths.take literalCount), .ofLengths (lengths.drop literalCount)⟩
  if codes.literals.isAdmissible && codes.distances.isAdmissible then return codes
  else failure

/-- Put out `count` bytes as they are. -/
def readStored : Nat → Inflater Unit
  | 0 => return
  | count + 1 => do
    let byte ← bits 8
    emit byte.toUInt8
    readStored count

/-- Decode a block of bytes as they are: it starts at a whole byte and states its length twice. -/
def readStoredBlock : Inflater Unit := do
  modify fun state => { state with input := state.input.drop (state.input.length % 8) }
  let length ← bits 16
  let inverted ← bits 16
  if length + inverted = 0xFFFF then readStored length else failure

/-- Decode blocks up to the last one; every block takes a bit at least. -/
def readBlocks : Nat → Inflater Unit
  | 0 => failure
  | fuel + 1 => do
    let isLast ← bit
    let kind ← bits 2
    if kind = 0 then readStoredBlock
    else if kind = 1 then readSymbols .fixed ((← get).input.length + 1)
    else if kind = 2 then
      let codes ← readCodes
      readSymbols codes ((← get).input.length + 1)
    else failure
    if isLast then return else readBlocks fuel

/-- The bytes that a deflated stream decodes to. -/
def inflate? (deflated : Bytes) : Option Bytes :=
  let input := deflated.flatMap byteBits
  match readBlocks (input.length + 1) ⟨input, #[]⟩ with
  | some (_, state) => some state.output.toList
  | none => none

end ExtensionCatalog.Archive
