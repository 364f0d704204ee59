import LexicalTransducer.Gzip.Inflate

/-!
# Gzip members

A member is a header, compressed data, and a trailer with the checksum and the length of the content.  Of a file
only the first member is read.  The checksum is the cyclic redundancy check of 32 bits with the reflected polynomial
`0xEDB88320`.
-/

namespace LexicalTransducer.Gzip

/-! ### Checksums -/

/-- Shift one bit out of the check. -/
def shiftCheck (check : UInt32) : UInt32 :=
  if check &&& 1 = 1 then (check >>> 1) ^^^ 0xEDB88320 else check >>> 1

def addToCheck (check : UInt32) (byte : UInt8) : UInt32 :=
  Nat.repeat shiftCheck 8 (check ^^^ byte.toUInt32)

def checksum (bytes : ByteArray) : Nat :=
  (bytes.foldl addToCheck 0xFFFFFFFF ^^^ 0xFFFFFFFF).toNat

/-! ### Headers -/

/-- The number that `n` bytes write, the low byte first. -/
def littleEndian? (bytes : ByteArray) (start : Nat) : Nat → Option Nat
  | 0 => some 0
  | n + 1 => do
    let low ← bytes[start]?
    let high ← littleEndian? bytes (start + 1) n
    return low.toNat + 256 * high

def maxHeaderText : Nat := 65535

/-- The place behind the zero that ends a text, which may still have `n` bytes. -/
def skipText? (bytes : ByteArray) (start : Nat) : Nat → Option Nat
  | 0 => if bytes[start]? == some 0 then some (start + 1) else none
  | n + 1 => do
    if (← bytes[start]?) == 0 then return start + 1
    else skipText? bytes (start + 1) n

/-- The place behind extra data, which begin with their length. -/
def skipExtra? (bytes : ByteArray) (start : Nat) : Option Nat :=
  (littleEndian? bytes start 2).map fun length => start + 2 + length

/-- The place behind the check of a header, if the check is right. -/
def skipHeaderCheck? (bytes : ByteArray) (start : Nat) : Option Nat := do
  let check ← littleEndian? bytes start 2
  if check = checksum (bytes.extract 0 start) % 0x10000 then some (start + 2) else none

/-- The place behind the header: ten bytes, and what the flags in the fourth say is there of extra data, a file
name, a comment and a check of the header itself.  The three highest flags are reserved and have to be off. -/
def skipHeader? (bytes : ByteArray) : Option Nat := do
  let first ← bytes[0]?
  let second ← bytes[1]?
  let kind ← bytes[2]?
  let flags ← bytes[3]?
  let skipIf (flag : Nat) (skip : Nat → Option Nat) (place : Nat) : Option Nat :=
    if flags.toNat.testBit flag then skip place else some place
  if first ≠ 0x1f ∨ second ≠ 0x8b ∨ kind ≠ 8 ∨ 0x20 ≤ flags.toNat then none
  else
    let place ← skipIf 2 (skipExtra? bytes) 10
    let place ← skipIf 3 (fun place => skipText? bytes place maxHeaderText) place
    let place ← skipIf 4 (fun place => skipText? bytes place maxHeaderText) place
    let place ← skipIf 1 (skipHeaderCheck? bytes) place
    if place ≤ bytes.size then some place else none

/-! ### Contents -/

/-- Whether a trailer tells the checksum and the length of a content. -/
def isTrailerOf (content trailer : ByteArray) : Bool :=
  littleEndian? trailer 0 4 == some (checksum content) &&
    littleEndian? trailer 4 4 == some (content.size % 0x100000000)

/-- The content of the first member, or which of its parts is broken. -/
def unpack (bytes : ByteArray) : Except String ByteArray :=
  match skipHeader? bytes with
  | none => .error "invalid gzip header"
  | some start =>
    match inflate (bytes.extract start bytes.size) with
    | none => .error "corrupt deflate stream"
    | some (content, trailer) =>
      if isTrailerOf content trailer then .ok content
      else .error "corrupt gzip stream does not have a matching checksum"

end LexicalTransducer.Gzip
