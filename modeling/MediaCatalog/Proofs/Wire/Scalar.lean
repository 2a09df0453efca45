import Mathlib.Algebra.BigOperators.Group.List.Defs
import Mathlib.Tactic.NormNum
import MediaCatalog.Proofs.Text.Utf8
import MediaCatalog.Wire.Reader
import MediaCatalog.Wire.Writer

/-!
Reading back numbers and texts. Each lemma is about one field in front of whatever follows: the
reader gives the field back and leaves the rest of the input and the table of nodes alone.
-/

namespace MediaCatalog.Wire

/-! ### Numbers -/

theorem ofBigEndian_append_byte (bytes : List UInt8) (byte : UInt8) :
    ofBigEndian (bytes ++ [byte]) = ofBigEndian bytes * 256 + byte.toNat := by
  simp [ofBigEndian]

theorem ofBigEndian_bigEndian {width number : Nat} (h : number < 256 ^ width) :
    ofBigEndian (bigEndian width number) = number := by
  induction width generalizing number with
  | zero =>
      simp only [pow_zero, Nat.lt_one_iff] at h
      simp [bigEndian, ofBigEndian, h]
  | succ width ih =>
      have hquotient : number / 256 < 256 ^ width := by
        rw [pow_succ] at h
        omega
      rw [bigEndian, ofBigEndian_append_byte, ih hquotient]
      simp only [UInt8.toNat_ofNat']
      omega

@[simp] theorem length_word (number : Nat) : (word number).length = 4 :=
  length_bigEndian 4 number

theorem ofBigEndian_word {number : Nat} (h : number < 2 ^ 32) :
    ofBigEndian (word number) = number :=
  ofBigEndian_bigEndian (by norm_num at h ⊢; exact h)

/-- Sixty-four bits come back as they were written. -/
theorem ofNat_ofBigEndian_bigEndian (bits : UInt64) :
    UInt64.ofNat (ofBigEndian (bigEndian 8 bits.toNat)) = bits := by
  have hbits : bits.toNat < 256 ^ 8 := by
    have := bits.toNat_lt
    norm_num at this ⊢
    exact this
  rw [ofBigEndian_bigEndian hbits, UInt64.ofNat_toNat]

/-- Ids that were written one after another are cut apart again. -/
theorem pieces_flatMap (ids : List Int64) (rest : List UInt8) :
    (pieces 8 ids.length ((ids.flatMap fun id => bigEndian 8 id.toUInt64.toNat) ++ rest)).map
      (fun piece => (UInt64.ofNat (ofBigEndian piece)).toInt64) = ids := by
  induction ids with
  | nil => rfl
  | cons id ids ih =>
      have hwidth : (bigEndian 8 id.toUInt64.toNat).length = 8 := length_bigEndian 8 _
      simp only [List.flatMap_cons, List.length_cons, pieces, List.append_assoc, List.map_cons]
      rw [List.take_left' hwidth, List.drop_left' hwidth, ih, ofNat_ofBigEndian_bigEndian]
      simp

/-! ### Readers -/

/-- The markers of values that are more than one field. -/
def Marker.composite : List Marker := [.list, .dict, .collection, .reference]

namespace Reader

variable {α β : Type} {state state' : ReadState}

theorem bind_ok {read : Reader α} {next : α → Reader β} {value : α}
    (h : read state = .ok value state') : (read >>= next) state = next value state' := by
  simp [bind, EStateM.bind, h]

theorem bind_error {read : Reader α} {next : α → Reader β} {cause : WireError}
    (h : read state = .error cause state') : (read >>= next) state = .error cause state' := by
  simp [bind, EStateM.bind, h]

theorem bind_get {next : ReadState → Reader α} : (get >>= next) state = next state state := rfl

variable {nodes : List Collection} {next : NodeId} {rest : List UInt8}

theorem bytes_append {count : Nat} {front : List UInt8} (h : front.length = count) :
    bytes count ⟨front ++ rest, nodes, next⟩ = .ok front ⟨rest, nodes, next⟩ := by
  simp [bytes, splitAt?_append h]

theorem byte_cons (first : UInt8) :
    byte ⟨first :: rest, nodes, next⟩ = .ok first ⟨rest, nodes, next⟩ := rfl

/-- What follows the marker of a value. -/
def body (depth : Nat) : Marker → Reader Value
  | .none => return .none
  | .int => return .int (UInt64.ofNat (ofBigEndian (← bytes 8))).toInt64
  | .float => return .float (.ofBits (UInt64.ofNat (ofBigEndian (← bytes 8))))
  | .string => return .string (← text)
  | .binary => return .binary (← bytes (← word))
  | .list => return .list (← many (value depth) (← word))
  | .dict => return .dict (← dict (value depth))
  | .collection => return .collection (← collection (value depth))
  | .error => return .error (← text)
  | .reference => return .collection (← reference)

/-- A value starts with its marker, and what follows depends on the marker. -/
theorem value_succ (depth : Nat) :
    value (depth + 1) = byte >>= fun code =>
      match Marker.ofCode? code with
      | none => throw (.unknownMarker code)
      | some marker => body depth marker := by
  rw [value]
  congr 1
  ext1 code
  cases Marker.ofCode? code with
  | none => rfl
  | some marker => cases marker <;> rfl

theorem value_marker (marker : Marker) (depth : Nat) :
    value (depth + 1) ⟨marker.code :: rest, nodes, next⟩ =
      body depth marker ⟨rest, nodes, next⟩ := by
  rw [value_succ, bind_ok (byte_cons _), Marker.ofCode?_code]

/-- A property of readers that those of bytes have and that is kept when one reads on. -/
structure Kept (P : ∀ {α : Type}, Reader α → Prop) : Prop where
  pure : ∀ {α : Type} (result : α), P (Pure.pure result : Reader α)
  throw : ∀ {α : Type} (cause : WireError), P (MonadExcept.throw cause : Reader α)
  bind : ∀ {α β : Type} {read : Reader α} {next : α → Reader β}, P read →
    (∀ result, P (next result)) → P (read >>= next)
  bytes : ∀ count, P (Reader.bytes count)

namespace Kept

variable {P : ∀ {α : Type}, Reader α → Prop} (h : Kept P)
include h

theorem word : P Reader.word := h.bind (h.bytes 4) fun _ => h.pure _

theorem text : P Reader.text := by
  refine h.bind h.word fun count => h.bind (h.bytes count) fun front => ?_
  split
  · exact h.pure _
  · exact h.throw _

theorem ids : P Reader.ids := h.bind h.word fun _ => h.bind (h.bytes _) fun _ => h.pure _

/-- So has a value that is one field. -/
theorem scalar (depth : Nat) {marker : Marker} (hscalar : marker ∉ Marker.composite) :
    P (body depth marker) := by
  cases marker with
  | none => exact h.pure _
  | int | float => exact h.bind (h.bytes 8) fun _ => h.pure _
  | string | error => exact h.bind h.text fun _ => h.pure _
  | binary => exact h.bind h.word fun _ => h.bind (h.bytes _) fun _ => h.pure _
  | list | dict | collection | reference => exact absurd hscalar (by decide)

end Kept

theorem word_append {number : Nat} (h : number < 2 ^ 32) :
    word ⟨Wire.word number ++ rest, nodes, next⟩ = .ok number ⟨rest, nodes, next⟩ := by
  rw [word]
  rw [bind_ok (bytes_append (length_word number)), ofBigEndian_word h]
  rfl

theorem text_append {string : String} (h : string.utf8ByteSize < 2 ^ 32) :
    text ⟨Wire.text string ++ rest, nodes, next⟩ = .ok string ⟨rest, nodes, next⟩ := by
  have hsize : string.toUTF8.data.toList.length = string.utf8ByteSize := by
    rw [Array.length_toList, String.toUTF8_eq_toByteArray, ← String.size_toByteArray]
    rfl
  rw [text]
  rw [Wire.text, List.append_assoc, hsize, bind_ok (word_append h),
    bind_ok (bytes_append hsize), Text.fromUTF8?_toUTF8]
  rfl

theorem ids_append {ids : List Int64} (h : ids.length < 2 ^ 32) :
    Reader.ids ⟨Wire.word ids.length ++
        ((ids.flatMap fun id => bigEndian 8 id.toUInt64.toNat) ++ rest), nodes, next⟩ =
      .ok ids ⟨rest, nodes, next⟩ := by
  have hsize : (ids.flatMap fun id => bigEndian 8 id.toUInt64.toNat).length =
      8 * ids.length := by
    simp [List.length_flatMap, Nat.mul_comm]
  have hpieces := pieces_flatMap ids []
  rw [List.append_nil] at hpieces
  rw [Reader.ids]
  rw [bind_ok (word_append h), bind_ok (bytes_append hsize), hpieces]
  rfl

/-! ### Parts of values -/

variable {value : Reader Value} {state'' : ReadState}

theorem many_ok {item : Reader α} {first : α} {others : List α} {count : Nat}
    (hfirst : item state = .ok first state')
    (hothers : many item count state' = .ok others state'') :
    many item (count + 1) state = .ok (first :: others) state'' := by
  rw [many, bind_ok hfirst, bind_ok hothers]
  rfl

theorem many_error {item : Reader α} {count : Nat} {cause : WireError}
    (hfirst : item state = .error cause state') :
    many item (count + 1) state = .error cause state' := by
  rw [many, bind_error hfirst]

theorem many_later_error {item : Reader α} {first : α} {count : Nat} {cause : WireError}
    (hfirst : item state = .ok first state')
    (hothers : many item count state' = .error cause state'') :
    many item (count + 1) state = .error cause state'' := by
  rw [many, bind_ok hfirst, bind_error hothers]

theorem entry_ok {key : String} {item : Value} (hkey : key.utf8ByteSize < 2 ^ 32)
    (hitem : value ⟨rest, nodes, next⟩ = .ok item state') :
    entry value ⟨Wire.text key ++ rest, nodes, next⟩ = .ok (key, item) state' := by
  rw [entry, bind_ok (text_append hkey), bind_ok hitem]
  rfl

theorem entry_error {key : String} {cause : WireError} (hkey : key.utf8ByteSize < 2 ^ 32)
    (hitem : value ⟨rest, nodes, next⟩ = .error cause state') :
    entry value ⟨Wire.text key ++ rest, nodes, next⟩ = .error cause state' := by
  rw [entry, bind_ok (text_append hkey), bind_error hitem]

theorem dict_ok {entries : List (String × Value)} {count : Nat} (hcount : count < 2 ^ 32)
    (hmany : many (entry value) count ⟨rest, nodes, next⟩ = .ok entries state')
    (hdistinct : Dict.Distinct entries) :
    dict value ⟨Wire.word count ++ rest, nodes, next⟩ = .ok entries state' := by
  rw [dict, bind_ok (word_append hcount), bind_ok hmany, Dict.ofEntries_of_distinct hdistinct]
  rfl

theorem dict_error {count : Nat} {cause : WireError} (hcount : count < 2 ^ 32)
    (hmany : many (entry value) count ⟨rest, nodes, next⟩ = .error cause state') :
    dict value ⟨Wire.word count ++ rest, nodes, next⟩ = .error cause state' := by
  rw [dict, bind_ok (word_append hcount), bind_error hmany]

theorem operand_ok {node : Collection} (hnode : value state = .ok (.collection node) state') :
    operand value state = .ok node state' := by
  rw [operand, bind_ok hnode]
  rfl

theorem operand_error {cause : WireError} (hnode : value state = .error cause state') :
    operand value state = .error cause state' := by
  rw [operand, bind_error hnode]

variable {kind : CollectionKind} {input : List UInt8} {attributes : Dict Value}

/-- A node is read part by part, in the order in which it was written. -/
theorem collection_ok {ids : List Int64} {operands : List Collection} {node : Collection}
    {count : Nat} {afterAttributes afterIds afterCount afterOperands : ReadState}
    (hattributes : dict value ⟨input, nodes, next⟩ = .ok attributes afterAttributes)
    (hids : Reader.ids afterAttributes = .ok ids afterIds)
    (hcount : word afterIds = .ok count afterCount)
    (hoperands : many (operand value) count afterCount = .ok operands afterOperands)
    (hfinish : finish kind attributes operands ids afterOperands = .ok node state') :
    collection value ⟨kind.code :: input, nodes, next⟩ = .ok node state' := by
  rw [collection, bind_ok (byte_cons _), CollectionKind.ofCode?_code]
  simp only []
  rw [bind_ok hattributes, bind_ok hids, bind_ok hcount, bind_ok hoperands, hfinish]

theorem collection_attributes_error {cause : WireError}
    (hattributes : dict value ⟨input, nodes, next⟩ = .error cause state') :
    collection value ⟨kind.code :: input, nodes, next⟩ = .error cause state' := by
  rw [collection, bind_ok (byte_cons _), CollectionKind.ofCode?_code]
  simp only []
  rw [bind_error hattributes]

theorem collection_operands_error {ids : List Int64} {count : Nat} {cause : WireError}
    {afterAttributes afterIds afterCount : ReadState}
    (hattributes : dict value ⟨input, nodes, next⟩ = .ok attributes afterAttributes)
    (hids : Reader.ids afterAttributes = .ok ids afterIds)
    (hcount : word afterIds = .ok count afterCount)
    (hoperands : many (operand value) count afterCount = .error cause state') :
    collection value ⟨kind.code :: input, nodes, next⟩ = .error cause state' := by
  rw [collection, bind_ok (byte_cons _), CollectionKind.ofCode?_code]
  simp only []
  rw [bind_ok hattributes, bind_ok hids, bind_ok hcount, bind_error hoperands]

end Reader

end MediaCatalog.Wire
