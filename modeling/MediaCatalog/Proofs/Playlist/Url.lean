import MediaCatalog.Playlist.Url
import MediaCatalog.Proofs.Text.Utf8

/-!
Urls of paths. The receiver undoes the pluses first and the escapes after them, where the sender
escaped first. That goes well because a plus of the path itself is escaped, and so is every `%`:
the pluses of a url are the spaces of its path, and its `%` all start escapes.
-/

namespace MediaCatalog

/-! ### Escapes -/

namespace Text

variable {keep : UInt8 → Bool}

theorem hexValue?_hexDigitByte : ∀ digit < 16, hexValue? (hexDigitByte digit) = some digit := by
  decide

theorem percentDecode_escape (byte : UInt8) (rest : List UInt8) :
    percentDecode (0x25 :: hexDigitByte (byte.toNat / 16) :: hexDigitByte (byte.toNat % 16) ::
      rest) = byte :: percentDecode rest := by
  have hbyte := byte.toNat_lt
  rw [percentDecode, hexValue?_hexDigitByte _ (by omega), hexValue?_hexDigitByte _ (by omega)]
  show UInt8.ofNat (byte.toNat / 16 * 16 + byte.toNat % 16) :: percentDecode rest = _
  rw [Nat.div_add_mod', UInt8.ofNat_toNat]

theorem percentDecode_cons {byte : UInt8} (h : byte ≠ 0x25) (rest : List UInt8) :
    percentDecode (byte :: rest) = byte :: percentDecode rest := by
  match rest with
  | [] | [_] => rfl
  | high :: low :: rest => rw [percentDecode, beq_eq_false_iff_ne.mpr h]

/-- Reading takes back what writing escaped, if `%` is escaped as well. -/
theorem percentDecode_percentEncode (hkeep : keep 0x25 = false) (bytes : List UInt8) :
    percentDecode (percentEncode keep bytes) = bytes := by
  induction bytes with
  | nil => rfl
  | cons byte rest ih =>
      rw [percentEncode, List.flatMap_cons]
      change percentDecode (_ ++ percentEncode keep rest) = _
      split
      · next hkept =>
        have hne : byte ≠ 0x25 := by
          rintro rfl
          rw [hkeep] at hkept
          exact absurd hkept (by decide)
        rw [List.singleton_append, percentDecode_cons hne, ih]
      · rw [List.cons_append, List.cons_append, List.cons_append, List.nil_append,
          percentDecode_escape, ih]

/-- What an escaped text consists of. -/
theorem mem_percentEncode {bytes : List UInt8} {byte : UInt8}
    (h : byte ∈ percentEncode keep bytes) :
    byte = 0x25 ∨ isAsciiAlphanumeric byte ∨ keep byte := by
  obtain ⟨source, -, h⟩ := List.mem_flatMap.mp h
  split at h
  · next hkept =>
    rw [List.mem_singleton.mp h]
    exact .inr (Bool.or_eq_true_iff.mp hkept)
  · have hlt := source.toNat_lt
    have hdigit : ∀ digit < 16, isAsciiAlphanumeric (hexDigitByte digit) := by decide
    simp only [List.mem_cons, List.not_mem_nil, or_false] at h
    rcases h with rfl | rfl | rfl
    · exact .inl rfl
    · exact .inr (.inl (hdigit _ (by omega)))
    · exact .inr (.inl (hdigit _ (by omega)))

end Text

namespace Playlist

/-! ### Marks of a url -/

/-- The bytes of a url with their escapes, before its spaces are written as pluses. -/
def escaped (url : String) : List UInt8 :=
  Text.percentEncode keptInPath url.toUTF8.data.toList

variable {url path : String} {byte : UInt8}

/-- An escaped url is ASCII, and no plus is in it. -/
theorem of_mem_escaped (h : byte ∈ escaped url) : byte < 0x80 ∧ byte ≠ 0x2B := by
  rcases Text.mem_percentEncode h with rfl | halphanumeric | hkept
  · decide
  · simp only [Text.isAsciiAlphanumeric, Bool.or_eq_true, Bool.and_eq_true,
      decide_eq_true_eq] at halphanumeric
    grind
  · simp only [keptInPath, Bool.or_eq_true, beq_iff_eq] at hkept
    grind

theorem lt_of_mem_replaceByte (h : byte ∈ replaceByte 0x20 0x2B (escaped url)) : byte < 0x80 := by
  obtain ⟨source, hsource, rfl⟩ := List.mem_map.mp h
  split
  · decide
  · exact (of_mem_escaped hsource).1

theorem replaceByte_replaceByte {old new : UInt8} {bytes : List UInt8} (h : new ∉ bytes) :
    replaceByte new old (replaceByte old new bytes) = bytes := by
  rw [replaceByte, replaceByte, List.map_map]
  refine (List.map_congr_left fun byte hbyte => ?_).trans bytes.map_id
  have hne : byte ≠ new := ne_of_mem_of_not_mem hbyte h
  by_cases hold : byte = old <;> simp [hold, hne]

/-- The characters that a url of a path may have. -/
def IsMark (char : Char) : Prop :=
  char.isAlphanum ∨ char ∈ ['%', '+', ':', '/', '-', '.', '_']

instance (char : Char) : Decidable (IsMark char) :=
  inferInstanceAs (Decidable (char.isAlphanum ∨ char ∈ ['%', '+', ':', '/', '-', '.', '_']))

theorem isMark_of_mem (h : byte ∈ replaceByte 0x20 0x2B (escaped url)) :
    IsMark (Char.ofNat byte.toNat) := by
  obtain ⟨source, hsource, rfl⟩ := List.mem_map.mp h
  split
  · decide
  · next hspace =>
    have halphanumeric : ∀ number < 0x80, Text.isAsciiAlphanumeric (UInt8.ofNat number) →
        (Char.ofNat number).isAlphanum := by
      decide
    have hascii : source.toNat < 0x80 := (of_mem_escaped hsource).1
    rcases Text.mem_percentEncode hsource with rfl | hletter | hkept
    · decide
    · exact .inl (halphanumeric source.toNat hascii (by rwa [UInt8.ofNat_toNat]))
    · simp only [keptInPath, Bool.or_eq_true, beq_iff_eq] at hkept hspace
      rcases hkept with hkept | rfl
      · rcases hkept with (((rfl | rfl) | rfl) | rfl) | rfl <;> decide
      · exact absurd rfl hspace

/-! ### Reading a url -/

/-- The text that is escaped in the url of a path. -/
def addressed (path : String) : String :=
  if Text.hasScheme path then path else fileScheme ++ path

/-- The receiver gets what was escaped, but for the scheme of files. -/
theorem pathOfUrl_addressed (path : String) :
    pathOfUrl (urlOfPath path) = .ok (withoutFileScheme (addressed path)) := by
  have hbytes : (urlOfPath path).toUTF8.data.toList =
      replaceByte 0x20 0x2B (escaped (addressed path)) :=
    Text.toUTF8_ofList_ascii fun _ => lt_of_mem_replaceByte
  have hplus : (0x2B : UInt8) ∉ escaped (addressed path) := fun h => (of_mem_escaped h).2 rfl
  rw [pathOfUrl, hbytes, replaceByte_replaceByte hplus, escaped,
    Text.percentDecode_percentEncode rfl, Text.fromUTF8?_toUTF8]

/-! ### The scheme of files -/

theorem hasScheme_fileScheme (rest : String) : Text.hasScheme (fileScheme ++ rest) := by
  rw [Text.hasScheme, String.toList_append]
  rfl

theorem withoutFileScheme_append (rest : String) :
    withoutFileScheme (fileScheme ++ rest) = rest := by
  rw [withoutFileScheme]
  simp only [String.toList_append, List.isPrefixOf_iff_prefix, List.prefix_append, if_true,
    List.drop_left, String.ofList_toList]

theorem withoutFileScheme_of_ne (h : ∀ rest, path ≠ fileScheme ++ rest) :
    withoutFileScheme path = path := by
  refine if_neg fun hprefix => ?_
  obtain ⟨rest, hrest⟩ := List.isPrefixOf_iff_prefix.mp hprefix
  refine h (String.ofList rest) (String.toList_injective ?_)
  rw [String.toList_append, String.toList_ofList, hrest]

/-- The url of a path has few kinds of characters, and the receiver reads the path back from it. A
path that starts with the scheme of files comes without it, and no more is taken off. -/
theorem pathOfUrl_urlOfPath (path : String) :
    (∀ char ∈ (urlOfPath path).toList, IsMark char) ∧
      ((∀ rest, path ≠ fileScheme ++ rest) → pathOfUrl (urlOfPath path) = .ok path) ∧
      ∀ rest, path = fileScheme ++ rest → pathOfUrl (urlOfPath path) = .ok rest := by
  refine ⟨fun char hchar => ?_, fun hne => ?_, ?_⟩
  · rw [urlOfPath, String.toList_ofList] at hchar
    obtain ⟨byte, hbyte, rfl⟩ := List.mem_map.mp hchar
    exact isMark_of_mem hbyte
  · rw [pathOfUrl_addressed, addressed]
    split
    · rw [withoutFileScheme_of_ne hne]
    · rw [withoutFileScheme_append]
  · rintro rest rfl
    rw [pathOfUrl_addressed, addressed, if_pos (hasScheme_fileScheme rest),
      withoutFileScheme_append]

/-- Marks of every kind come back, and one of two schemes of files stays. -/
theorem pathOfUrl_urlOfPath_marked :
    (∀ rest, "/Süd/a+b c%20:d" ≠ fileScheme ++ rest) ∧
      pathOfUrl (urlOfPath "/Süd/a+b c%20:d") = .ok "/Süd/a+b c%20:d" ∧
      pathOfUrl (urlOfPath "file://file://x") = .ok "file://x" := by
  have hne : ∀ rest, "/Süd/a+b c%20:d" ≠ fileScheme ++ rest := by
    intro rest h
    have hhead := congrArg (fun text => text.toList.head?) h
    rw [String.toList_append] at hhead
    exact nomatch Option.some.inj hhead
  exact ⟨hne, (pathOfUrl_urlOfPath _).2.1 hne, (pathOfUrl_urlOfPath _).2.2 "file://x" (by decide)⟩

end Playlist

end MediaCatalog
