import Mathlib.Data.List.Basic

/-!
Texts and their bytes. A text is read back from its UTF-8 form and from no other one, and a text of
ASCII characters has their numbers for bytes.
-/

namespace MediaCatalog.Text

theorem fromUTF8?_toUTF8 (text : String) :
    String.fromUTF8? text.toUTF8.data.toList.toByteArray = some text := by
  have hbytes : text.toUTF8.data.toList.toByteArray = text.toUTF8 := by
    apply ByteArray.ext
    simp [List.data_toByteArray]
  rw [hbytes]
  simp only [String.fromUTF8?, String.toUTF8_eq_toByteArray, text.isValidUTF8, dite_true]
  rfl

theorem toUTF8_of_fromUTF8? {bytes : List UInt8} {text : String}
    (h : String.fromUTF8? bytes.toByteArray = some text) : text.toUTF8.data.toList = bytes := by
  rw [String.fromUTF8?] at h
  split at h
  · obtain rfl := Option.some.inj h
    show bytes.toByteArray.data.toList = bytes
    rw [List.data_toByteArray]
  · cases h

theorem utf8EncodeChar_ascii {byte : UInt8} (h : byte < 0x80) :
    String.utf8EncodeChar (Char.ofNat byte.toNat) = [byte] := by
  have hlt : byte.toNat < 128 := h
  have hvalid : byte.toNat.isValidChar := .inl (by omega)
  have hval : (Char.ofNat byte.toNat).val.toNat = byte.toNat := by
    rw [Char.ofNat, dif_pos hvalid]
    rfl
  simp only [String.utf8EncodeChar, hval]
  rw [if_pos (by omega), UInt8.ofNat_toNat]

theorem toUTF8_ofList_ascii {bytes : List UInt8} (h : ∀ byte ∈ bytes, byte < 0x80) :
    (String.ofList (bytes.map fun byte => Char.ofNat byte.toNat)).toUTF8.data.toList = bytes := by
  have hchars : (bytes.map fun byte => Char.ofNat byte.toNat).flatMap String.utf8EncodeChar =
      bytes := by
    rw [List.flatMap_map, List.flatMap_congr fun byte hbyte => utf8EncodeChar_ascii (h byte hbyte),
      List.flatMap_singleton']
  rw [String.toUTF8_eq_toByteArray, String.toByteArray_ofList, List.utf8Encode,
    List.data_toByteArray, hchars]

end MediaCatalog.Text
