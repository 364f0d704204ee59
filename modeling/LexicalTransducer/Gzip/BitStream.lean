/-!
# Bit streams

Bytes read bit by bit, the low bit of a byte first.
-/

namespace LexicalTransducer.Gzip

/-- Bytes with a position in bits. -/
structure BitStream where
  bytes : ByteArray
  position : Nat := 0

namespace BitStream

def remaining (s : BitStream) : Nat :=
  8 * s.bytes.size - s.position

def bit? (s : BitStream) : Option (Nat × BitStream) := do
  let byte ← s.bytes[s.position / 8]?
  return ((byte.toNat.testBit (s.position % 8)).toNat, { s with position := s.position + 1 })

/-- The next `n` bits as a number, the low bit first. -/
def bits? (s : BitStream) : Nat → Option (Nat × BitStream)
  | 0 => some (0, s)
  | n + 1 => do
    let (low, s) ← s.bit?
    let (high, s) ← s.bits? n
    return (low + 2 * high, s)

def align (s : BitStream) : BitStream :=
  { s with position := 8 * ((s.position + 7) / 8) }

/-- The bytes behind the position, from the next whole byte on. -/
def restBytes (s : BitStream) : ByteArray :=
  s.bytes.extract (s.align.position / 8) s.bytes.size

end BitStream

end LexicalTransducer.Gzip
