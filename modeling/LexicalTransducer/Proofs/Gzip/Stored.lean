import Mathlib.Tactic.Ring
import LexicalTransducer.Gzip.Member

/-!
# Stored members

Content can be put into a gzip member without compressing it, cut into blocks of at most 65535 bytes
(`storedMember`).  Such a member is unpacked to its content, whatever stands behind it (`unpack_storedMember`).

What is read at a place depends on the piece that stands there (`StandsAt`): a number is read from its bytes
(`littleEndian?_of_standsAt`) and from their bits (`bits?_of_standsAt`), and a block from its parts
(`inflateBlock_of_standsAt`).  The blocks are read one after the other (`inflateBlocks_of_standsAt`).
-/

namespace LexicalTransducer.Gzip

/-! ### Places -/

/-- The piece stands in the bytes at that place. -/
def StandsAt (piece bytes : ByteArray) (place : Nat) : Prop :=
  ∃ before after, bytes = before ++ piece ++ after ∧ before.size = place

variable {piece piece₁ piece₂ bytes content out : ByteArray} {place : Nat}

private theorem standsAt_zero (piece after : ByteArray) : StandsAt piece (piece ++ after) 0 :=
  ⟨.empty, after, by rw [ByteArray.empty_append], rfl⟩

namespace StandsAt

private theorem left (h : StandsAt (piece₁ ++ piece₂) bytes place) : StandsAt piece₁ bytes place := by
  obtain ⟨before, after, rfl, rfl⟩ := h
  exact ⟨before, piece₂ ++ after, by simp only [ByteArray.append_assoc], rfl⟩

private theorem right (h : StandsAt (piece₁ ++ piece₂) bytes place) : StandsAt piece₂ bytes (place + piece₁.size) := by
  obtain ⟨before, after, rfl, rfl⟩ := h
  exact ⟨before ++ piece₁, after, by simp only [ByteArray.append_assoc], ByteArray.size_append⟩

private theorem add_size_le (h : StandsAt piece bytes place) : place + piece.size ≤ bytes.size := by
  obtain ⟨before, after, rfl, rfl⟩ := h
  rw [ByteArray.size_append, ByteArray.size_append]
  omega

private theorem extract_eq (h : StandsAt piece bytes place) : bytes.extract place (place + piece.size) = piece := by
  obtain ⟨before, after, rfl, rfl⟩ := h
  rw [ByteArray.append_assoc]
  calc
    _ = (piece ++ after).extract 0 piece.size := ByteArray.extract_append_size_add (i := 0)
    _ = piece := by rw [ByteArray.extract_append_size_left, ByteArray.extract_zero_size]

private theorem getElem?_eq {i : Nat} (h : StandsAt piece bytes place) (hi : i < piece.size) :
    bytes[place + i]? = some piece[i] := by
  obtain ⟨before, after, rfl, rfl⟩ := h
  refine getElem?_eq_some_iff.2 ⟨by simp only [ByteArray.size_append]; omega, ?_⟩
  rw [ByteArray.getElem_append_left (by rw [ByteArray.size_append]; omega),
    ByteArray.getElem_append_right (by omega)]
  simp

end StandsAt

/-! ### Numbers -/

/-- A number in `n` bytes, the low byte first. -/
def littleEndian (k : Nat) : Nat → ByteArray
  | 0 => .empty
  | n + 1 => [k.toUInt8].toByteArray ++ littleEndian (k / 256) n

@[simp] theorem size_littleEndian (k n : Nat) : (littleEndian k n).size = n := by
  induction n generalizing k with
  | zero => rfl
  | succ n ih =>
    rw [littleEndian, ByteArray.size_append, ih, List.size_toByteArray, List.length_singleton, Nat.add_comm]

namespace StandsAt

private theorem getElem?_byte {b : UInt8} (h : StandsAt [b].toByteArray bytes place) : bytes[place]? = some b :=
  h.getElem?_eq (i := 0) (by rw [List.size_toByteArray]; exact Nat.one_pos)

private theorem behind_byte {b : UInt8} (h : StandsAt ([b].toByteArray ++ piece) bytes place) :
    StandsAt piece bytes (place + 1) := by
  have hright := h.right
  rwa [List.size_toByteArray, List.length_singleton] at hright

private theorem behind_littleEndian {k n : Nat} (h : StandsAt (littleEndian k n ++ piece) bytes place) :
    StandsAt piece bytes (place + n) := by
  have hright := h.right
  rwa [size_littleEndian] at hright

end StandsAt

theorem littleEndian?_of_standsAt {k n : Nat} (h : StandsAt (littleEndian k n) bytes place) :
    littleEndian? bytes place n = some (k % 256 ^ n) := by
  induction n generalizing k place with
  | zero => simp [littleEndian?, Nat.mod_one]
  | succ n ih =>
    rw [littleEndian?, h.left.getElem?_byte, ih h.behind_byte, Nat.pow_succ', Nat.mod_mul]
    simp

/-! ### Bits -/

namespace BitStream

/-- The stream `n` bits further. -/
def skip (s : BitStream) (n : Nat) : BitStream :=
  { s with position := s.position + n }

variable {s s₁ s₂ : BitStream} {b : UInt8} {j k m n low high : Nat}

@[simp] theorem position_skip (s : BitStream) (n : Nat) : (s.skip n).position = s.position + n := rfl

@[simp] theorem position_align (s : BitStream) : s.align.position = 8 * ((s.position + 7) / 8) := rfl

private theorem skip_skip (s : BitStream) (m n : Nat) : (s.skip m).skip n = s.skip (m + n) := by
  rw [skip, skip, skip, Nat.add_assoc]

private theorem bit?_of_byte (hposition : s.position = 8 * place + j) (hj : j < 8) (hbyte : s.bytes[place]? = some b) :
    s.bit? = some (b.toNat / 2 ^ j % 2, s.skip 1) := by
  have hplace : s.position / 8 = place := by omega
  have hbit : s.position % 8 = j := by omega
  simp [bit?, hplace, hbit, hbyte, Nat.toNat_testBit, skip]

/-- Bits within a byte. -/
private theorem bits?_of_byte (hposition : s.position = 8 * place + j) (hn : j + n ≤ 8)
    (hbyte : s.bytes[place]? = some b) : s.bits? n = some (b.toNat / 2 ^ j % 2 ^ n, s.skip n) := by
  induction n generalizing s j with
  | zero => simp [bits?, Nat.mod_one, skip]
  | succ n ih =>
    have hlow := bit?_of_byte hposition (by omega) hbyte
    have hhigh := ih (s := s.skip 1) (j := j + 1) (by rw [position_skip, hposition, Nat.add_assoc]) (by omega) hbyte
    have hdiv : b.toNat / 2 ^ (j + 1) = b.toNat / 2 ^ j / 2 := by rw [Nat.pow_succ, Nat.div_div_eq_div_mul]
    rw [hdiv, skip_skip, Nat.add_comm 1 n] at hhigh
    simp only [bits?, hlow, hhigh, Option.bind_eq_bind, Option.bind_some, Nat.pow_succ', Nat.mod_mul]
    rfl

private theorem bits?_add (hlow : s.bits? m = some (low, s₁)) (hhigh : s₁.bits? n = some (high, s₂)) :
    s.bits? (m + n) = some (low + 2 ^ m * high, s₂) := by
  induction m generalizing s low with
  | zero =>
    simp only [bits?, Option.some.injEq, Prod.mk.injEq] at hlow
    obtain ⟨rfl, rfl⟩ := hlow
    simpa using hhigh
  | succ m ih =>
    simp only [bits?, Option.bind_eq_bind, Option.bind_eq_some_iff, Option.pure_def, Option.some.injEq,
      Prod.mk.injEq] at hlow
    obtain ⟨⟨bit, s₀⟩, hbit, ⟨rest, _⟩, hrest, rfl, rfl⟩ := hlow
    have hlater := ih hrest
    simp only [Nat.succ_add, bits?, hbit, hlater, Option.bind_eq_bind, Option.bind_some, Option.pure_def]
    ring_nf

theorem bits?_of_standsAt (h : StandsAt (littleEndian k n) s.bytes place) (hposition : s.position = 8 * place) :
    s.bits? (8 * n) = some (k % 256 ^ n, s.skip (8 * n)) := by
  induction n generalizing s k place with
  | zero => simp [bits?, Nat.mod_one, skip]
  | succ n ih =>
    have hlow : s.bits? 8 = some (k % 256, s.skip 8) := by
      rw [bits?_of_byte (j := 0) hposition (Nat.le_refl 8) h.left.getElem?_byte]
      simp
    have hhigh := ih (s := s.skip 8) h.behind_byte (by rw [position_skip]; omega)
    rw [Nat.mul_succ, Nat.add_comm, bits?_add hlow hhigh, skip_skip, Nat.pow_succ' (m := 256), Nat.mod_mul]
    rfl

end BitStream

/-! ### Blocks -/

variable {s : BitStream} {last : Bool}

/-- A stored block: a byte that tells whether it is the last, its length, the complement of that, and its content. -/
def storedBlock (last : Bool) (piece : ByteArray) : ByteArray :=
  [last.toUInt8].toByteArray ++ (littleEndian piece.size 2 ++ (littleEndian (0xFFFF - piece.size) 2 ++ piece))

private theorem size_storedBlock (last : Bool) (piece : ByteArray) :
    (storedBlock last piece).size = 5 + piece.size := by
  simp only [storedBlock, ByteArray.size_append, List.size_toByteArray, List.length_singleton, size_littleEndian]
  omega

private theorem inflateStored_of_standsAt
    (h : StandsAt (littleEndian piece.size 2 ++ (littleEndian (0xFFFF - piece.size) 2 ++ piece)) s.bytes place)
    (hposition : s.align.position = 8 * place) (hsize : piece.size ≤ 0xFFFF) :
    inflateStored s out = some (out ++ piece, { s with position := 8 * (place + 4 + piece.size) }) := by
  have hlength : s.align.bits? 16 = some (piece.size, s.align.skip 16) := by
    rw [BitStream.bits?_of_standsAt (s := s.align) (n := 2) h.left hposition, Nat.mod_eq_of_lt (by omega)]
  have hbehind := h.behind_littleEndian
  have hcomplement : (s.align.skip 16).bits? 16 = some (0xFFFF - piece.size, s.align.skip 32) := by
    rw [BitStream.bits?_of_standsAt (s := s.align.skip 16) (n := 2) hbehind.left
      (by rw [BitStream.position_skip]; omega), Nat.mod_eq_of_lt (by omega), BitStream.skip_skip]
  have hpiece := hbehind.behind_littleEndian
  have hstart : (s.align.skip 32).position / 8 = place + 2 + 2 := by
    rw [BitStream.position_skip]
    omega
  have hend : place + 2 + 2 + piece.size ≤ (s.align.skip 32).bytes.size := hpiece.add_size_le
  have hextract : (s.align.skip 32).bytes.extract (place + 2 + 2) (place + 2 + 2 + piece.size) = piece :=
    hpiece.extract_eq
  have hnext : (s.align.skip 32).position + 8 * piece.size = 8 * (place + 4 + piece.size) := by
    rw [BitStream.position_skip]
    omega
  simp only [inflateStored, hlength, hcomplement, hstart, hextract, hnext, Option.bind_eq_bind, Option.bind_some]
  rw [if_pos ⟨by omega, hend⟩]
  rfl

theorem inflateBlock_of_standsAt (h : StandsAt (storedBlock last piece) s.bytes place)
    (hposition : s.position = 8 * place) (hsize : piece.size ≤ 0xFFFF) :
    inflateBlock s out =
      some (last, out ++ piece, { s with position := 8 * (place + (storedBlock last piece).size) }) := by
  have hbyte := h.left.getElem?_byte
  have hlast : s.bits? 1 = some (last.toNat, s.skip 1) := by
    rw [BitStream.bits?_of_byte (j := 0) hposition (by omega) hbyte]
    cases last <;> rfl
  have hkind : (s.skip 1).bits? 2 = some (0, s.skip 3) := by
    rw [BitStream.bits?_of_byte (s := s.skip 1) (j := 1) (by rw [BitStream.position_skip, hposition]) (by omega) hbyte,
      BitStream.skip_skip]
    cases last <;> rfl
  have hstored : inflateStored (s.skip 3) out = _ := inflateStored_of_standsAt h.behind_byte
    (by rw [BitStream.position_align, BitStream.position_skip]; omega) hsize
  have hnext : place + 1 + 4 + piece.size = place + (storedBlock last piece).size := by
    rw [size_storedBlock]
    omega
  rw [hnext] at hstored
  simp only [inflateBlock, hlast, hkind, hstored, Option.bind_eq_bind, Option.bind_some]
  cases last <;> rfl

/-- Stored blocks, the final one marked as the last. -/
def storedBlocks (pieces : List ByteArray) (final : ByteArray) : ByteArray :=
  pieces.foldr (storedBlock false · ++ ·) (storedBlock true final)

/-- The content of stored blocks. -/
def joinPieces (pieces : List ByteArray) (final : ByteArray) : ByteArray :=
  pieces.foldr (· ++ ·) final

variable {pieces : List ByteArray} {final : ByteArray}

theorem inflateBlocks_of_standsAt (h : StandsAt (storedBlocks pieces final) s.bytes place)
    (hposition : s.position = 8 * place) (hsize : ∀ piece ∈ final :: pieces, piece.size ≤ 0xFFFF) :
    inflateBlocks s out =
      some (out ++ joinPieces pieces final, { s with position := 8 * (place + (storedBlocks pieces final).size) }) := by
  induction pieces generalizing s place out with
  | nil =>
    rw [inflateBlocks, inflateBlock_of_standsAt h hposition (hsize final (List.mem_cons_self ..))]
    rfl
  | cons piece pieces ih =>
    rw [storedBlocks, List.foldr_cons] at h
    have hpiece := hsize piece (List.mem_cons_of_mem _ (List.mem_cons_self ..))
    have hlater : ∀ piece ∈ final :: pieces, piece.size ≤ 0xFFFF := fun piece hp =>
      hsize piece (by grind)
    have hfit := h.left.add_size_le
    have hblock := size_storedBlock false piece
    rw [inflateBlocks, inflateBlock_of_standsAt h.left hposition hpiece]
    dsimp only
    rw [dif_pos (by simp only [BitStream.remaining]; omega),
      ih (s := { s with position := 8 * (place + (storedBlock false piece).size) }) h.right rfl hlater]
    simp only [joinPieces, storedBlocks, List.foldr_cons, ByteArray.append_assoc, ByteArray.size_append, Nat.add_assoc]

private theorem inflate_storedBlocks (hsize : ∀ piece ∈ final :: pieces, piece.size ≤ 0xFFFF) (rest : ByteArray) :
    inflate (storedBlocks pieces final ++ rest) = some (joinPieces pieces final, rest) := by
  let bytes := storedBlocks pieces final ++ rest
  have hplace : 8 * ((8 * (0 + (storedBlocks pieces final).size) + 7) / 8) / 8 = (storedBlocks pieces final).size := by
    omega
  have hrest : BitStream.restBytes ⟨bytes, 8 * (0 + (storedBlocks pieces final).size)⟩ = rest :=
    ByteArray.extract_append_eq_right hplace ByteArray.size_append
  rw [inflate, inflateBlocks_of_standsAt (s := ⟨bytes, 0⟩) (standsAt_zero (storedBlocks pieces final) rest) rfl hsize]
  simp only [Option.bind_eq_bind, Option.bind_some, ByteArray.empty_append]
  rw [hrest]
  rfl

/-! ### Members -/

/-- A header without extra data, a file name, a comment or a check. -/
def plainHeader : ByteArray :=
  [0x1f, 0x8b, 8, 0, 0, 0, 0, 0, 0, 0xff].toByteArray

def storedMember (pieces : List ByteArray) (final : ByteArray) : ByteArray :=
  let content := joinPieces pieces final
  plainHeader ++ (storedBlocks pieces final ++ (littleEndian (checksum content) 4 ++ littleEndian content.size 4))

private theorem skipHeader?_plainHeader (rest : ByteArray) : skipHeader? (plainHeader ++ rest) = some 10 := by
  have hbyte (i : Nat) (hi : i < 10) : (plainHeader ++ rest)[i]? = some plainHeader[i] := by
    have hat := (standsAt_zero plainHeader rest).getElem?_eq (i := i) hi
    rwa [Nat.zero_add] at hat
  have hfirst : (plainHeader ++ rest)[0]? = some 0x1f := hbyte 0 (by decide)
  have hsecond : (plainHeader ++ rest)[1]? = some 0x8b := hbyte 1 (by decide)
  have hkind : (plainHeader ++ rest)[2]? = some 8 := hbyte 2 (by decide)
  have hflags : (plainHeader ++ rest)[3]? = some 0 := hbyte 3 (by decide)
  have hsize : 10 ≤ (plainHeader ++ rest).size := by
    rw [ByteArray.size_append]
    exact Nat.le_add_right ..
  simp [skipHeader?, hfirst, hsecond, hkind, hflags, hsize, -ByteArray.size_append]

private theorem checksum_lt (bytes : ByteArray) : checksum bytes < 256 ^ 4 :=
  UInt32.toNat_lt _

/-- A stored member is unpacked to its content, whatever stands behind it. -/
theorem unpack_storedMember (hsize : ∀ piece ∈ final :: pieces, piece.size ≤ 0xFFFF) (rest : ByteArray) :
    unpack (storedMember pieces final ++ rest) = .ok (joinPieces pieces final) := by
  let content := joinPieces pieces final
  let trailer := littleEndian (checksum content) 4 ++ (littleEndian content.size 4 ++ rest)
  let blocks := storedBlocks pieces final
  have hmember : storedMember pieces final ++ rest = plainHeader ++ (blocks ++ trailer) := by
    simp only [storedMember, ByteArray.append_assoc, blocks, trailer, content]
  have hbehind : (plainHeader ++ (blocks ++ trailer)).extract 10 (plainHeader ++ (blocks ++ trailer)).size =
      blocks ++ trailer :=
    ByteArray.extract_append_eq_right rfl ByteArray.size_append
  have hinflate : inflate (blocks ++ trailer) = some (content, trailer) := inflate_storedBlocks hsize trailer
  have hcheck : littleEndian? trailer 0 4 = some (checksum content) := by
    rw [littleEndian?_of_standsAt (standsAt_zero (littleEndian (checksum content) 4) _),
      Nat.mod_eq_of_lt (checksum_lt content)]
  have hlength : littleEndian? trailer 4 4 = some (content.size % 256 ^ 4) :=
    littleEndian?_of_standsAt ⟨littleEndian (checksum content) 4, rest, by simp only [trailer, ByteArray.append_assoc],
      size_littleEndian ..⟩
  have htrailer : isTrailerOf content trailer = true := by
    rw [isTrailerOf, hcheck, hlength]
    simp
  rw [hmember, unpack, skipHeader?_plainHeader]
  simp only [hbehind, hinflate]
  exact if_pos htrailer

end LexicalTransducer.Gzip
