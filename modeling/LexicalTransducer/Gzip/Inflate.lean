import LexicalTransducer.Gzip.PrefixCode

/-!
# Inflating compressed data

Compressed data are blocks up to one that is marked as the last.  A block is stored as it is, or holds symbols of
two prefix codes: one for bytes and for the lengths of copies, one for the distances of copies.  The codes are the
fixed ones, or are described at the start of the block.  In front of the content stand zeros, so a copy may reach
back beyond the first byte.
-/

namespace LexicalTransducer.Gzip

structure BlockCodes where
  literals : PrefixCode
  distances : PrefixCode

/-- The copy length for each symbol from 257 on: the least one, and how many further bits are added to it. -/
def lengthTable : List (Nat × Nat) :=
  [(3, 0), (4, 0), (5, 0), (6, 0), (7, 0), (8, 0), (9, 0), (10, 0), (11, 1), (13, 1), (15, 1), (17, 1),
   (19, 2), (23, 2), (27, 2), (31, 2), (35, 3), (43, 3), (51, 3), (59, 3), (67, 4), (83, 4), (99, 4),
   (115, 4), (131, 5), (163, 5), (195, 5), (227, 5), (258, 0)]

/-- The distance for each symbol: the least one, and how many further bits are added to it. -/
def distanceTable : List (Nat × Nat) :=
  [(1, 0), (2, 0), (3, 0), (4, 0), (5, 1), (7, 1), (9, 2), (13, 2), (17, 3), (25, 3), (33, 4), (49, 4),
   (65, 5), (97, 5), (129, 6), (193, 6), (257, 7), (385, 7), (513, 8), (769, 8), (1025, 9), (1537, 9),
   (2049, 10), (3073, 10), (4097, 11), (6145, 11), (8193, 12), (12289, 12), (16385, 13), (24577, 13)]

/-- The order in which a block lists the word lengths of the code for word lengths. -/
def lengthOrder : List Nat :=
  [16, 17, 18, 0, 8, 7, 9, 6, 10, 5, 11, 4, 12, 3, 13, 2, 14, 1, 15]

def fixedCodes : BlockCodes where
  literals := .ofLengths
    (List.replicate 144 8 ++ List.replicate 112 9 ++ List.replicate 24 7 ++ List.replicate 8 8)
  distances := .ofLengths (List.replicate 32 5)

inductive Token
  | byte (value : Nat)
  | copy (length distance : Nat)
  | endOfBlock

/-- Read a number that a table gives by its least value and its further bits. -/
def readValue (table : List (Nat × Nat)) (symbol : Nat) (s : BitStream) : Option (Nat × BitStream) := do
  let (least, extra) ← table[symbol]?
  let (more, s) ← s.bits? extra
  return (least + more, s)

def readToken (codes : BlockCodes) (s : BitStream) : Option (Token × BitStream) := do
  let (symbol, s) ← codes.literals.read s
  if symbol < 256 then return (.byte symbol, s)
  else if symbol = 256 then return (.endOfBlock, s)
  else
    let (length, s) ← readValue lengthTable (symbol - 257) s
    let (symbol, s) ← codes.distances.read s
    let (distance, s) ← readValue distanceTable symbol s
    return (.copy length distance, s)

/-- The byte that stands `distance` before the end, with zeros in front of the first byte. -/
def byteBack (out : ByteArray) (distance : Nat) : UInt8 :=
  if out.size < distance then 0 else (out[out.size - distance]?).getD 0

/-- Append `n` bytes, each the one that stands `distance` before the end. -/
def copyBack (out : ByteArray) (distance : Nat) : Nat → ByteArray
  | 0 => out
  | n + 1 => copyBack (out.push (byteBack out distance)) distance n

def append (out : ByteArray) : Token → ByteArray
  | .byte value => out.push value.toUInt8
  | .copy length distance => copyBack out distance length
  | .endOfBlock => out

/-- Inflate the tokens of a block up to its end.  Each token takes at least one bit. -/
def inflateTokens (codes : BlockCodes) (s : BitStream) (out : ByteArray) :
    Option (ByteArray × BitStream) :=
  match readToken codes s with
  | none => none
  | some (.endOfBlock, rest) => some (out, rest)
  | some (token, rest) =>
    if _h : rest.remaining < s.remaining then inflateTokens codes rest (append out token) else none
termination_by s.remaining

def readTriples (s : BitStream) : Nat → Option (List Nat × BitStream)
  | 0 => some ([], s)
  | n + 1 => do
    let (k, s) ← s.bits? 3
    let (ks, s) ← readTriples s n
    return (k :: ks, s)

/-- Read one entry of a list of word lengths: a length and how often it stands.  The symbols 16 to 18 repeat the
length `last?` before, or zero. -/
def readRun (code : PrefixCode) (last? : Option Nat) (s : BitStream) : Option ((Nat × Nat) × BitStream) := do
  let (symbol, s) ← code.read s
  if symbol < 16 then return ((symbol, 1), s)
  else if symbol = 16 then
    let last ← last?
    let (k, s) ← s.bits? 2
    return ((last, 3 + k), s)
  else if symbol = 17 then
    let (k, s) ← s.bits? 3
    return ((0, 3 + k), s)
  else
    let (k, s) ← s.bits? 7
    return ((0, 11 + k), s)

/-- Read word lengths until there are at least `count`.  `lengths` have been read so far, the last one first. -/
def readLengths (code : PrefixCode) (count : Nat) (lengths : List Nat) (s : BitStream) :
    Option (List Nat × BitStream) :=
  if count ≤ lengths.length then some (lengths.reverse, s)
  else match readRun code lengths.head? s with
    | none => none
    | some ((length, times), rest) =>
      if _h : rest.remaining < s.remaining then
        readLengths code count (List.replicate times length ++ lengths) rest
      else none
termination_by s.remaining

/-- Read the codes that a block describes, by way of a code for their word lengths.  That code has to be complete;
the codes themselves may also be trivial. -/
def readCodes (s : BitStream) : Option (BlockCodes × BitStream) := do
  let (a, s) ← s.bits? 5
  let (b, s) ← s.bits? 5
  let (c, s) ← s.bits? 4
  let (literalCount, distanceCount) := (a + 257, b + 1)
  if 286 < literalCount ∨ 30 < distanceCount then none
  else
    let (triples, s) ← readTriples s (c + 4)
    let lengthOf (symbol : Nat) : Nat := ((lengthOrder.zip triples).lookup symbol).getD 0
    let code := PrefixCode.ofLengths ((List.range 19).map lengthOf)
    if !code.isComplete then none
    else
      let (lengths, s) ← readLengths code (literalCount + distanceCount) [] s
      let literals := PrefixCode.ofLengths (lengths.take literalCount)
      let distances := PrefixCode.ofLengths (lengths.drop literalCount)
      let isAdmitted (code : PrefixCode) : Bool := code.isComplete || code.isTrivial
      if lengths.length = literalCount + distanceCount ∧ isAdmitted literals ∧ isAdmitted distances then
        return ({ literals, distances }, s)
      else none

/-- Inflate a stored block: its length, the complement of that, and as many bytes. -/
def inflateStored (s : BitStream) (out : ByteArray) : Option (ByteArray × BitStream) := do
  let (length, s) ← s.align.bits? 16
  let (complement, s) ← s.bits? 16
  let start := s.position / 8
  if length + complement = 0xFFFF ∧ start + length ≤ s.bytes.size then
    return (out ++ s.bytes.extract start (start + length), { s with position := s.position + 8 * length })
  else none

/-- Inflate one block, and tell whether it was the last. -/
def inflateBlock (s : BitStream) (out : ByteArray) : Option (Bool × ByteArray × BitStream) := do
  let (last, s) ← s.bits? 1
  let (kind, s) ← s.bits? 2
  let (out, s) ← match kind with
    | 0 => inflateStored s out
    | 1 => inflateTokens fixedCodes s out
    | 2 => do
      let (codes, s) ← readCodes s
      inflateTokens codes s out
    | _ => none
  return (last == 1, out, s)

/-- Inflate blocks up to the last.  Each block takes at least one bit. -/
def inflateBlocks (s : BitStream) (out : ByteArray) : Option (ByteArray × BitStream) :=
  match inflateBlock s out with
  | none => none
  | some (true, out, rest) => some (out, rest)
  | some (false, out, rest) =>
    if _h : rest.remaining < s.remaining then inflateBlocks rest out else none
termination_by s.remaining

/-- Inflate compressed data.  What stands behind the last block is left over. -/
def inflate (bytes : ByteArray) : Option (ByteArray × ByteArray) := do
  let (out, rest) ← inflateBlocks { bytes } ByteArray.empty
  return (out, rest.restBytes)

end LexicalTransducer.Gzip
