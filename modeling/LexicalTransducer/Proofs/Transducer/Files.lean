import LexicalTransducer.Transducer.File
import LexicalTransducer.Proofs.Gzip.Stored
import LexicalTransducer.Proofs.Text.Utf8
import LexicalTransducer.Proofs.Transducer.RoundTrip

/-!
# Transducers in files

A file holds a text in one of two ways, as UTF-8 (`textOfFile_toUTF8`) or packed into a gzip member
(`textOfFile_of_gunzip`).  The two do not get into each other's way, because the second of the two bytes that a member
begins with cannot follow the first in UTF-8 (`isGzip_toUTF8`).  What unpacks members comes from outside, and all that
is asked of it is that it unpacks nothing else (`Gunzip.OnlyMembers`).  So from a file the same is loaded as from the
text that it holds (`Transducer.ofFile_eq_ofText`).
-/

namespace LexicalTransducer

variable {gunzip : Gunzip} {bytes : ByteArray} {text : String} {orientation : Orientation}

/-! ### The first two bytes -/

private theorem isGzip_iff : isGzip bytes = true ↔ [0x1f, 0x8b] <+: bytes.data.toList := by
  have hbyte (i : Nat) : bytes[i]? = bytes.data.toList[i]? := by
    simp only [getElem?_def]
    rfl
  rw [isGzip, hbyte, hbyte]
  rcases bytes.data.toList with - | ⟨a, - | ⟨b, bs⟩⟩
  · simp
  · simp
  · simp [List.cons_prefix_cons, eq_comm (a := a), eq_comm (a := b)]

/-- The first of the two bytes is a whole character, and the second begins none. -/
theorem isGzip_toUTF8 (text : String) : isGzip text.toUTF8 = false := by
  rw [Bool.eq_false_iff, ne_eq, isGzip, Bool.and_eq_true, beq_iff_eq, beq_iff_eq]
  rintro ⟨hzero, hone⟩
  obtain ⟨hpos, hzero⟩ := getElem?_eq_some_iff.1 hzero
  obtain ⟨hsize, hone⟩ := getElem?_eq_some_iff.1 hone
  have hfirst := Utf8.isUTF8FirstByte_getElem_one hsize (by rw [hzero]; decide)
  rw [hone] at hfirst
  exact absurd hfirst (by decide)

/-- Nothing is unpacked but what begins with the two bytes of a gzip member. -/
def Gunzip.OnlyMembers (gunzip : Gunzip) : Prop :=
  ∀ bytes content, gunzip bytes = .ok content → [0x1f, 0x8b] <+: bytes.data.toList

private theorem Gzip.onlyMembers_unpack : Gunzip.OnlyMembers unpack := by
  intro bytes content h
  rw [unpack] at h
  cases hstart : skipHeader? bytes with
  | none =>
    rw [hstart] at h
    cases h
  | some start =>
    simp only [skipHeader?, Option.bind_eq_bind, Option.bind_eq_some_iff] at hstart
    obtain ⟨first, hfirst, second, hsecond, kind, -, flags, -, hstart⟩ := hstart
    split at hstart
    · cases hstart
    · rename_i hguard
      simp only [not_or, Decidable.not_not] at hguard
      rw [← isGzip_iff, isGzip, hfirst, hsecond, hguard.1, hguard.2.1]
      rfl

/-! ### Texts -/

theorem textOfFile_toUTF8 (gunzip : Gunzip) (text : String) : textOfFile gunzip text.toUTF8 = .ok text := by
  rw [textOfFile, if_neg (by rw [isGzip_toUTF8]; exact Bool.false_ne_true), Utf8.decode_eq_ok.2 rfl]

theorem textOfFile_of_gunzip (hgzip : isGzip bytes = true) (h : gunzip bytes = .ok text.toUTF8) :
    textOfFile gunzip bytes = .ok text := by
  have hutf8 : String.fromUTF8? text.toUTF8 = some text := Utf8.fromUTF8?_eq_some.2 rfl
  rw [textOfFile, if_pos hgzip, h]
  simp only [hutf8]

private theorem textOfFile_of_forall_ne (hgzip : isGzip bytes = false) (h : ∀ text : String, text.toUTF8 ≠ bytes) :
    textOfFile gunzip bytes = .error (.notUtf8 (Utf8.firstFault bytes)) := by
  rw [textOfFile, if_neg (ne_true_of_eq_false hgzip), Utf8.decode_of_forall_ne h]

/-! ### Transducers -/

namespace Transducer

private theorem ofFile_of_textOfFile (h : textOfFile gunzip bytes = .ok text) :
    ofFile gunzip bytes orientation = (ofText text orientation).mapError .badNet := by
  rw [ofFile, h]
  rfl

/-- A file is read as the text that it holds, as UTF-8 or in a gzip member.  Bytes that are neither, and do not begin as
a member does, are rejected at their first fault. -/
theorem ofFile_eq_ofText (gunzip : Gunzip) (orientation : Orientation) :
    (∀ text : String, ¬ [0x1f, 0x8b] <+: text.toUTF8.data.toList ∧
      ofFile gunzip text.toUTF8 orientation = (ofText text orientation).mapError .badNet) ∧
    (gunzip.OnlyMembers → ∀ (bytes : ByteArray) (text : String), gunzip bytes = .ok text.toUTF8 →
      ofFile gunzip bytes orientation = (ofText text orientation).mapError .badNet) ∧
    ∀ bytes : ByteArray, ¬ [0x1f, 0x8b] <+: bytes.data.toList → (∀ text : String, text.toUTF8 ≠ bytes) →
      ofFile gunzip bytes orientation = .error (.notUtf8 (Utf8.firstFault bytes)) := by
  refine ⟨fun text => ⟨?_, ofFile_of_textOfFile (textOfFile_toUTF8 gunzip text)⟩, fun honly bytes text h => ?_,
    fun bytes hgzip h => ?_⟩
  · rw [← isGzip_iff]
    exact ne_true_of_eq_false (isGzip_toUTF8 text)
  · have hgzip : isGzip bytes = true := isGzip_iff.2 (honly bytes _ h)
    exact ofFile_of_textOfFile (textOfFile_of_gunzip hgzip h)
  · have hgzip' : isGzip bytes = false := by rwa [← isGzip_iff, Bool.not_eq_true] at hgzip
    rw [ofFile, textOfFile_of_forall_ne hgzip' h]
    rfl

/-- A member that holds a net, and bytes that hold no text. -/
theorem ofFile_tagged :
    Gunzip.OnlyMembers Gzip.unpack ∧
    Gzip.unpack (Gzip.storedMember [] taggedText.toUTF8) = .ok taggedText.toUTF8 ∧
    ofFile Gzip.unpack (Gzip.storedMember [] taggedText.toUTF8) .normal = .ok tagged ∧
    ofFile Gzip.unpack ⟨#[0xff, 0xfe, 0x00, 0x23]⟩ .normal = .error (.notUtf8 (.invalid 0 1)) := by
  have hmember : Gzip.unpack (Gzip.storedMember [] taggedText.toUTF8) = .ok taggedText.toUTF8 := by
    have hread : Gzip.unpack (Gzip.storedMember [] taggedText.toUTF8 ++ .empty) = .ok taggedText.toUTF8 :=
      Gzip.unpack_storedMember (by decide +kernel) .empty
    rwa [ByteArray.append_empty] at hread
  have hfault : String.fromUTF8? ⟨#[0xff, 0xfe, 0x00, 0x23]⟩ = none := by decide
  have hnone : ∀ text : String, text.toUTF8 ≠ ⟨#[0xff, 0xfe, 0x00, 0x23]⟩ := by
    intro text h
    have hsome := Utf8.fromUTF8?_eq_some.2 h.symm
    rw [hfault] at hsome
    cases hsome
  refine ⟨Gzip.onlyMembers_unpack, hmember, ?_, ?_⟩
  · rw [(ofFile_eq_ofText Gzip.unpack .normal).2.1 Gzip.onlyMembers_unpack _ _ hmember, ofText_tagged]
    rfl
  · rw [(ofFile_eq_ofText Gzip.unpack .normal).2.2 _ (by decide) hnone]
    decide +kernel

end Transducer

end LexicalTransducer
