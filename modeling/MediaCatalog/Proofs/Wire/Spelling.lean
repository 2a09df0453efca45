import Mathlib.Data.List.Induction
import MediaCatalog.Proofs.Wire.Scalar

/-!
Spelling. What a reader of numbers and texts takes from the input is how the writer spells its
result: each of these fields has one spelling, and nothing else is accepted in its place.
-/

namespace MediaCatalog

theorem CollectionKind.eq_code {code : UInt8} {kind : CollectionKind}
    (h : ofCode? code = some kind) : code = kind.code := by
  unfold ofCode? at h
  split at h <;> cases h <;> rfl

namespace Wire

theorem Marker.eq_code {code : UInt8} {marker : Marker} (h : ofCode? code = some marker) :
    code = marker.code := by
  unfold ofCode? at h
  split at h <;> cases h <;> rfl

/-! ### Numbers and texts -/

theorem bigEndian_ofBigEndian (bytes : List UInt8) :
    bigEndian bytes.length (ofBigEndian bytes) = bytes := by
  induction bytes using List.reverseRecOn with
  | nil => rfl
  | append_singleton bytes byte ih =>
    have hbyte := byte.toNat_lt
    have hquotient : (ofBigEndian bytes * 256 + byte.toNat) / 256 = ofBigEndian bytes := by omega
    have hlast : UInt8.ofNat (ofBigEndian bytes * 256 + byte.toNat) = byte := by
      apply UInt8.toNat_inj.mp
      rw [UInt8.toNat_ofNat']
      omega
    rw [List.length_append, List.length_singleton, bigEndian, ofBigEndian_append_byte, hquotient,
      ih, hlast]

theorem ofBigEndian_lt (bytes : List UInt8) : ofBigEndian bytes < 256 ^ bytes.length := by
  induction bytes using List.reverseRecOn with
  | nil => simp [ofBigEndian]
  | append_singleton bytes byte ih =>
    have hbyte := byte.toNat_lt
    rw [ofBigEndian_append_byte, List.length_append, List.length_singleton, pow_succ]
    omega

/-- Eight bytes are the bits of the number that they denote. -/
theorem bigEndian_ofNat_ofBigEndian {bytes : List UInt8} (h : bytes.length = 8) :
    bigEndian 8 (UInt64.ofNat (ofBigEndian bytes)).toNat = bytes := by
  have hsmall := ofBigEndian_lt bytes
  rw [h] at hsmall
  norm_num at hsmall
  rw [UInt64.toNat_ofNat', Nat.mod_eq_of_lt hsmall, ← h, bigEndian_ofBigEndian]

theorem flatMap_pieces {count : Nat} {bytes : List UInt8} (h : bytes.length = 8 * count) :
    ((pieces 8 count bytes).map fun piece => (UInt64.ofNat (ofBigEndian piece)).toInt64).flatMap
      (fun id => bigEndian 8 id.toUInt64.toNat) = bytes := by
  induction count generalizing bytes with
  | zero => rw [List.length_eq_zero_iff.mp h]; rfl
  | succ count ih =>
    have hfront : (bytes.take 8).length = 8 := by
      rw [List.length_take]
      omega
    have hrest : (bytes.drop 8).length = 8 * count := by
      rw [List.length_drop]
      omega
    rw [pieces, List.map_cons, List.flatMap_cons, ih hrest, UInt64.toUInt64_toInt64,
      bigEndian_ofNat_ofBigEndian hfront, List.take_append_drop]

theorem length_pieces {α : Type} (size count : Nat) (items : List α) :
    (pieces size count items).length = count := by
  induction count generalizing items with
  | zero => rfl
  | succ count ih => rw [pieces, List.length_cons, ih]

namespace Reader

variable {α β : Type} {state state' : ReadState}

/-- A run that went well went well in both of its parts, whatever state it keeps. -/
theorem exists_of_bind_ok {σ : Type} {state state' : σ} {read : EStateM WireError σ α}
    {next : α → EStateM WireError σ β} {result : β}
    (h : (read >>= next) state = .ok result state') :
    ∃ first middle, read state = .ok first middle ∧ next first middle = .ok result state' := by
  simp only [bind, EStateM.bind] at h
  split at h
  · next first middle hread => exact ⟨first, middle, hread, h⟩
  · cases h

/-- What the reader takes from the input is how its result is written. -/
def Spells (read : Reader α) (print : α → List UInt8) : Prop :=
  ∀ {state result state'}, read state = .ok result state' →
    state = { state' with input := print result ++ state'.input }

theorem bytes_ok {count : Nat} {front : List UInt8} (h : bytes count state = .ok front state') :
    front.length = count ∧ state = { state' with input := front ++ state'.input } := by
  simp only [bytes, splitAt?] at h
  by_cases hsize : (state.input.take count).length = count
  · rw [if_pos hsize] at h
    obtain ⟨rfl, rfl⟩ := EStateM.Result.ok.inj h
    refine ⟨hsize, ?_⟩
    show state = { state with input := state.input.take count ++ state.input.drop count }
    rw [List.take_append_drop]
  · rw [if_neg hsize] at h
    cases h

theorem spells_byte : Spells byte fun byte => [byte] := by
  rintro ⟨input, nodes, next⟩ first state' h
  cases input with
  | nil => cases h
  | cons head rest =>
    obtain ⟨rfl, rfl⟩ := EStateM.Result.ok.inj h
    rfl

theorem spells_word : Spells word Wire.word := by
  intro state number state' h
  obtain ⟨front, middle, hfront, hnumber⟩ := exists_of_bind_ok h
  obtain ⟨hsize, rfl⟩ := bytes_ok hfront
  obtain ⟨rfl, rfl⟩ := EStateM.Result.ok.inj hnumber
  have hword : Wire.word (ofBigEndian front) = front := by
    rw [Wire.word, ← hsize, bigEndian_ofBigEndian]
  rw [hword]

theorem spells_text : Spells text Wire.text := by
  intro state string state' h
  obtain ⟨count, afterCount, hcount, hrest⟩ := exists_of_bind_ok h
  obtain ⟨front, afterFront, hfront, hstring⟩ := exists_of_bind_ok hrest
  obtain ⟨hsize, rfl⟩ := bytes_ok hfront
  cases htext : String.fromUTF8? front.toByteArray with
  | none =>
    rw [htext] at hstring
    cases hstring
  | some text =>
    rw [htext] at hstring
    obtain ⟨rfl, rfl⟩ := EStateM.Result.ok.inj hstring
    rw [spells_word hcount, Wire.text, Text.toUTF8_of_fromUTF8? htext, hsize, List.append_assoc]

theorem spells_ids : Spells ids fun ids =>
    Wire.word ids.length ++ ids.flatMap fun id => bigEndian 8 id.toUInt64.toNat := by
  intro state ids state' h
  obtain ⟨count, afterCount, hcount, hrest⟩ := exists_of_bind_ok h
  obtain ⟨front, afterFront, hfront, hids⟩ := exists_of_bind_ok hrest
  obtain ⟨hsize, rfl⟩ := bytes_ok hfront
  obtain ⟨rfl, rfl⟩ := EStateM.Result.ok.inj hids
  rw [spells_word hcount]
  dsimp only
  rw [flatMap_pieces hsize, List.length_map, length_pieces, List.append_assoc]

theorem spells_binary : Spells (do bytes (← word)) fun front =>
    Wire.word front.length ++ front := by
  intro state front state' h
  obtain ⟨count, afterCount, hcount, hfront⟩ := exists_of_bind_ok h
  obtain ⟨hsize, rfl⟩ := bytes_ok hfront
  rw [spells_word hcount]
  dsimp only
  rw [hsize, List.append_assoc]

/-- Sixty-four bits. -/
theorem spells_bits : Spells (do return UInt64.ofNat (ofBigEndian (← bytes 8))) fun bits =>
    bigEndian 8 bits.toNat := by
  intro state bits state' h
  obtain ⟨front, afterFront, hfront, hbits⟩ := exists_of_bind_ok h
  obtain ⟨hsize, rfl⟩ := bytes_ok hfront
  obtain ⟨rfl, rfl⟩ := EStateM.Result.ok.inj hbits
  dsimp only
  rw [bigEndian_ofNat_ofBigEndian hsize]

end Reader

end Wire

end MediaCatalog
