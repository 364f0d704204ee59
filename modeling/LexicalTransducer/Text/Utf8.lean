/-!
# UTF-8

Bytes that are no UTF-8 have a first place where that shows: a sequence that is broken off by a byte that cannot
stand there, or by the end of the bytes.
-/

namespace LexicalTransducer.Utf8

/-- Where and how bytes fail to be UTF-8. -/
inductive Fault
  /-- At byte `start` begin `length` bytes that no sequence begins with and goes on as these bytes do. -/
  | invalid (start length : Nat)
  /-- The sequence at byte `start` is not complete when the bytes end. -/
  | incomplete (start : Nat)
deriving DecidableEq, Repr

def Fault.message : Fault → String
  | invalid start length => s!"invalid utf-8 sequence of {length} bytes from index {start}"
  | incomplete start => s!"incomplete utf-8 byte sequence from index {start}"

/-- The ranges of the bytes that may follow a first byte, if it begins a sequence. -/
def followers? (first : Nat) : Option (List (Nat × Nat)) :=
  if first < 0x80 then some []
  else if first < 0xC2 then none
  else if first < 0xE0 then some [(0x80, 0xBF)]
  else if first = 0xE0 then some [(0xA0, 0xBF), (0x80, 0xBF)]
  else if first = 0xED then some [(0x80, 0x9F), (0x80, 0xBF)]
  else if first < 0xF0 then some [(0x80, 0xBF), (0x80, 0xBF)]
  else if first = 0xF0 then some [(0x90, 0xBF), (0x80, 0xBF), (0x80, 0xBF)]
  else if first < 0xF4 then some [(0x80, 0xBF), (0x80, 0xBF), (0x80, 0xBF)]
  else if first = 0xF4 then some [(0x80, 0x8F), (0x80, 0xBF), (0x80, 0xBF)]
  else none

/-- Match bytes against the ranges of a sequence that begins at `start`, of which `length` bytes have been seen. -/
def scan? (start length : Nat) : List (Nat × Nat) → List UInt8 → Option Fault
  | [], [] => none
  | [], b :: bytes =>
    match followers? b.toNat with
    | none => some (.invalid (start + length) 1)
    | some ranges => scan? (start + length) 1 ranges bytes
  | _ :: _, [] => some (.incomplete start)
  | (low, high) :: ranges, b :: bytes =>
    if low ≤ b.toNat ∧ b.toNat ≤ high then scan? start (length + 1) ranges bytes
    else some (.invalid start length)

/-- The first place where bytes fail to be UTF-8; for bytes that are UTF-8, their end. -/
def firstFault (bytes : ByteArray) : Fault :=
  (scan? 0 0 [] bytes.toList).getD (.incomplete bytes.size)

def decode (bytes : ByteArray) : Except Fault String :=
  match String.fromUTF8? bytes with
  | some text => .ok text
  | none => .error (firstFault bytes)

end LexicalTransducer.Utf8
