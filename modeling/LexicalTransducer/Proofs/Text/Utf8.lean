import LexicalTransducer.Text.Utf8

/-!
# Texts as UTF-8

Bytes are decoded to a text exactly if they encode it (`decode_eq_ok`).  In an encoded text a byte that is a character
of its own has the first byte of a character behind it (`isUTF8FirstByte_getElem_one`).
-/

namespace LexicalTransducer.Utf8

variable {bytes : ByteArray} {text : String}

theorem fromUTF8?_eq_some : String.fromUTF8? bytes = some text ↔ bytes = text.toUTF8 := by
  rw [String.fromUTF8?]
  constructor
  · intro h
    split at h
    · cases h
      rfl
    · cases h
  · rintro rfl
    exact dif_pos text.isValidUTF8

theorem decode_eq_ok : decode bytes = .ok text ↔ bytes = text.toUTF8 := by
  rw [← fromUTF8?_eq_some, decode]
  cases String.fromUTF8? bytes <;> simp

theorem decode_of_forall_ne (h : ∀ text : String, text.toUTF8 ≠ bytes) : decode bytes = .error (firstFault bytes) := by
  have hnone : String.fromUTF8? bytes = none :=
    Option.eq_none_iff_forall_ne_some.2 fun text htext => h text (fromUTF8?_eq_some.1 htext).symm
  rw [decode, hnone]

/-- A character whose encoding begins with a byte of seven bits has one byte. -/
private theorem utf8Size_eq_one {c : Char} {rest : ByteArray}
    (h : 0 < ((String.utf8EncodeChar c).toByteArray ++ rest).size)
    (hascii : ((String.utf8EncodeChar c).toByteArray ++ rest)[0] &&& 0x80 = 0) : c.utf8Size = 1 := by
  have hsome : (((String.utf8EncodeChar c).toByteArray ++ rest).utf8DecodeChar? 0).isSome := by
    rw [ByteArray.utf8DecodeChar?_utf8EncodeChar_append, Option.isSome_some]
  have hc : ((String.utf8EncodeChar c).toByteArray ++ rest).utf8DecodeChar 0 hsome = c := by
    simp only [ByteArray.utf8DecodeChar, ByteArray.utf8DecodeChar?_utf8EncodeChar_append, Option.get_some]
  rw [← hc, ByteArray.utf8Size_utf8DecodeChar, UInt8.utf8ByteSize, if_pos hascii]

/-- Behind a first byte of seven bits the next character begins. -/
theorem isUTF8FirstByte_getElem_one (hone : 1 < text.toUTF8.size) (hascii : text.toUTF8[0] &&& 0x80 = 0) :
    text.toUTF8[1].IsUTF8FirstByte := by
  obtain ⟨cs, rfl⟩ : ∃ cs, text = String.ofList cs := ⟨text.toList, String.ofList_toList.symm⟩
  cases cs with
  | nil => simp at hone
  | cons c cs =>
    have hbytes : (String.ofList (c :: cs)).toUTF8 = (String.utf8EncodeChar c).toByteArray ++ cs.utf8Encode := by
      rw [← List.utf8Encode_singleton, ← List.utf8Encode_cons, String.toUTF8_eq_toByteArray, String.toByteArray_ofList]
    simp only [hbytes] at hone hascii ⊢
    have hsize : (String.utf8EncodeChar c).toByteArray.size = 1 := by
      simpa using utf8Size_eq_one _ hascii
    rw [ByteArray.getElem_append_right (by omega)]
    simp only [hsize]
    exact ByteArray.isValidUTF8_utf8Encode.isUTF8FirstByte_getElem_zero _

end LexicalTransducer.Utf8
