import MediaCatalog.Proofs.Wire.Nesting
import MediaCatalog.Proofs.Wire.Scalar

/-!
What is written is read. Nothing is asked here of identities, of keys or of the number of nodes:
whatever comes out, the reader takes exactly the bytes that were written. All it has to know are as
many nodes as the writer, since a number that was written stands for a node before it.
-/

namespace MediaCatalog

/-- Nothing fits into no levels. -/
theorem Value.levels_pos (value : Value) (written : List NodeId) :
    0 < (value.levels written).1 := by
  cases value with
  | collection node =>
      obtain ⟨id, kind, attributes, operands, ids⟩ := node
      simp only [Value.levels, Collection.levels]
      split <;> simp
  | _ => simp [Value.levels]

namespace Wire

variable {α β : Type}

/-! ### Numbers that are cut -/

theorem bigEndian_mod (width number : Nat) :
    bigEndian width (number % 256 ^ width) = bigEndian width number := by
  induction width generalizing number with
  | zero => rfl
  | succ width ih =>
      have hlast : UInt8.ofNat (number % (256 * 256 ^ width)) = UInt8.ofNat number := by
        apply UInt8.toNat_inj.mp
        rw [UInt8.toNat_ofNat', UInt8.toNat_ofNat']
        exact Nat.mod_mul_right_mod number 256 (256 ^ width)
      rw [bigEndian, bigEndian, pow_succ', hlast, Nat.mod_mul_right_div_self, ih]

/-- Of a number that is too large for four bytes the lowest four come back. -/
theorem ofBigEndian_word_mod (number : Nat) : ofBigEndian (word number) = number % 2 ^ 32 := by
  have hsmall : number % 256 ^ 4 < 256 ^ 4 := Nat.mod_lt _ (by norm_num)
  rw [word, ← bigEndian_mod, ofBigEndian_bigEndian hsmall]
  norm_num

/-! ### Readers that take what was written -/

/-- From a table with as many nodes as the writer knows, the reader takes the bytes that were
written, and comes to such a table again. -/
def Accepts (read : Reader α) (known : List NodeId) (written : List UInt8 × List NodeId) : Prop :=
  ∀ (rest : List UInt8) (nodes : List Collection) (next : NodeId), known.length ≤ nodes.length →
    ∃ result nodes' next',
      read ⟨written.1 ++ rest, nodes, next⟩ = .ok result ⟨rest, nodes', next'⟩ ∧
        written.2.length ≤ nodes'.length

namespace Accepts

variable {read : Reader α} {next : α → Reader β} {known middle table : List NodeId}
  {front back : List UInt8}

theorem pure (result : α) : Accepts (Pure.pure result : Reader α) known ([], known) :=
  fun _ nodes fresh hknown => ⟨result, nodes, fresh, rfl, hknown⟩

theorem bind (h : Accepts read known (front, middle))
    (h' : ∀ result, Accepts (next result) middle (back, table)) :
    Accepts (read >>= next) known (front ++ back, table) := by
  intro rest nodes fresh hknown
  obtain ⟨first, nodes', fresh', hfirst, hmiddle⟩ := h (back ++ rest) nodes fresh hknown
  obtain ⟨last, nodes'', fresh'', hlast, htable⟩ := h' first rest nodes' fresh' hmiddle
  exact ⟨last, nodes'', fresh'', by rw [List.append_assoc, Reader.bind_ok hfirst, hlast], htable⟩

/-- A result that is only wrapped is read from the same bytes. -/
theorem map (h : Accepts read known (front, table)) (make : α → β) :
    Accepts (do return make (← read)) known (front, table) := by
  simpa only [List.append_nil] using h.bind fun result => .pure (make result)

/-- A field that is read back in front of anything. -/
theorem field {result : α}
    (h : ∀ rest nodes fresh, read ⟨front ++ rest, nodes, fresh⟩ = .ok result ⟨rest, nodes, fresh⟩)
    (h' : Accepts (next result) known (back, table)) :
    Accepts (read >>= next) known (front ++ back, table) := by
  intro rest nodes fresh hknown
  obtain ⟨last, nodes', fresh', hlast, htable⟩ := h' rest nodes fresh hknown
  exact ⟨last, nodes', fresh', by rw [List.append_assoc, Reader.bind_ok (h ..), hlast], htable⟩

theorem marked {depth : Nat} (marker : Marker)
    (h : Accepts (Reader.body depth marker) known (front, table)) :
    Accepts (Reader.value (depth + 1)) known (marker.code :: front, table) := by
  intro rest nodes fresh hknown
  obtain ⟨value, nodes', fresh', hvalue, htable⟩ := h rest nodes fresh hknown
  exact ⟨value, nodes', fresh', by rw [List.cons_append, Reader.value_marker, hvalue], htable⟩

/-- A value that is one field. -/
theorem scalar {depth : Nat} {marker : Marker} {result : α} {make : α → Value}
    (hbody : Reader.body depth marker = do return make (← read))
    (h : ∀ rest nodes fresh,
      read ⟨front ++ rest, nodes, fresh⟩ = .ok result ⟨rest, nodes, fresh⟩) :
    Accepts (Reader.value (depth + 1)) known (marker.code :: front, known) := by
  refine marked marker ?_
  rw [hbody, ← List.append_nil front]
  exact field h (.pure _)

/-- What reads a node after a marker reads an operand. -/
theorem operand {depth : Nat} {read : Reader Collection} (marker : Marker)
    (hbody : Reader.body depth marker = do return .collection (← read))
    (h : Accepts read known (front, table)) :
    Accepts (Reader.operand (Reader.value (depth + 1))) known (marker.code :: front, table) := by
  intro rest nodes fresh hknown
  obtain ⟨node, nodes', fresh', hnode, htable⟩ := h rest nodes fresh hknown
  refine ⟨node, nodes', fresh', Reader.operand_ok ?_, htable⟩
  rw [List.cons_append, Reader.value_marker, hbody, Reader.bind_ok hnode]
  rfl

/-- An operand is a value. -/
theorem of_operand {value : Reader Value}
    (h : Accepts (Reader.operand value) known (front, table)) :
    Accepts value known (front, table) := by
  intro rest nodes fresh hknown
  obtain ⟨node, nodes', fresh', hnode, htable⟩ := h rest nodes fresh hknown
  refine ⟨.collection node, nodes', fresh', ?_, htable⟩
  cases hvalue : value ⟨front ++ rest, nodes, fresh⟩ with
  | error cause state =>
      rw [Reader.operand_error hvalue] at hnode
      cases hnode
  | ok item state =>
      rw [Reader.operand, Reader.bind_ok hvalue] at hnode
      cases item with
      | collection found =>
          obtain ⟨rfl, rfl⟩ := EStateM.Result.ok.inj hnode
          rfl
      | _ => cases hnode

end Accepts

/-- A finished node is one more for both sides. -/
theorem accepts_finish (id : NodeId) (kind : CollectionKind) (attributes : Dict Value)
    (operands : List Collection) (ids : List Int64) (known : List NodeId) :
    Accepts (Reader.finish kind attributes operands ids) known ([], known ++ [id]) := by
  intro rest nodes next hknown
  refine ⟨_, _, _, rfl, ?_⟩
  simp only [List.length_append, List.length_singleton]
  omega

/-- A number that was written is one of those that are known, even if it was cut. -/
theorem accepts_reference {known : List NodeId} {number : Nat} (h : number < known.length) :
    Accepts Reader.reference known (word number, known) := by
  intro rest nodes next hknown
  have hlt : number % 2 ^ 32 < nodes.length := ((Nat.mod_le _ _).trans_lt h).trans_le hknown
  have hword : Reader.word ⟨word number ++ rest, nodes, next⟩ =
      .ok (number % 2 ^ 32) ⟨rest, nodes, next⟩ := by
    rw [Reader.word]
    rw [Reader.bind_ok (Reader.bytes_append (length_word number)), ofBigEndian_word_mod]
    rfl
  refine ⟨nodes[number % 2 ^ 32], nodes, next, ?_, hknown⟩
  rw [Reader.reference]
  rw [Reader.bind_ok hword, Reader.bind_get]
  simp only [List.getElem?_eq_getElem hlt]
  rfl

/-! ### Parts of values -/

/-- The values that nest within the depth are read. -/
structure AcceptsWithin (depth : Nat) : Prop where
  value : ∀ (value : Value) (written : List NodeId), (∀ part ∈ value.parts, part.Sized) →
    (value.levels written).1 ≤ depth → Accepts (Reader.value depth) written (value.write written)
  operand : ∀ (node : Collection) (written : List NodeId), (∀ part ∈ node.parts, part.Sized) →
    (node.levels written).1 ≤ depth →
      Accepts (Reader.operand (Reader.value depth)) written (node.write written)

namespace AcceptsWithin

variable {depth : Nat} (h : AcceptsWithin depth)
include h

theorem items : ∀ (items : List Value) (written : List NodeId),
    (∀ part ∈ partsOfItems items, part.Sized) → (levelsOfItems items written).1 ≤ depth →
      Accepts (Reader.many (Reader.value depth) items.length) written (writeItems items written)
  | [], _, _, _ => .pure []
  | item :: rest, written, hsized, hlevels => by
      simp only [partsOfItems, List.mem_append] at hsized
      simp only [levelsOfItems, max_le_iff, Value.levels_snd] at hlevels
      refine (h.value item written (fun part hpart => hsized part (.inl hpart)) hlevels.1).bind
        fun _ => .map ?_ _
      exact items rest _ (fun part hpart => hsized part (.inr hpart)) hlevels.2

theorem entries : ∀ (entries : List (String × Value)) (written : List NodeId),
    (∀ entry ∈ entries, entry.1.utf8ByteSize < 2 ^ 32) →
    (∀ part ∈ partsOfEntries entries, part.Sized) → (levelsOfEntries entries written).1 ≤ depth →
      Accepts (Reader.many (Reader.entry (Reader.value depth)) entries.length) written
        (writeEntries entries written)
  | [], _, _, _, _ => .pure []
  | (key, value) :: rest, written, hkeys, hsized, hlevels => by
      simp only [List.mem_cons, forall_eq_or_imp] at hkeys
      simp only [partsOfEntries, List.mem_append] at hsized
      simp only [levelsOfEntries, max_le_iff, Value.levels_snd] at hlevels
      have hvalue := h.value value written (fun part hpart => hsized part (.inl hpart)) hlevels.1
      have hentry : Accepts (Reader.entry (Reader.value depth)) written
          (text key ++ (value.write written).1, (value.write written).2) :=
        .field (fun _ _ _ => Reader.text_append hkeys.1) (hvalue.map _)
      refine hentry.bind fun _ => .map ?_ _
      exact entries rest _ hkeys.2 (fun part hpart => hsized part (.inr hpart)) hlevels.2

theorem operands : ∀ (operands : List Collection) (written : List NodeId),
    (∀ part ∈ partsOfOperands operands, part.Sized) →
    (levelsOfOperands operands written).1 ≤ depth →
      Accepts (Reader.many (Reader.operand (Reader.value depth)) operands.length) written
        (writeOperands operands written)
  | [], _, _, _ => .pure []
  | operand :: rest, written, hsized, hlevels => by
      simp only [partsOfOperands, List.mem_append] at hsized
      simp only [levelsOfOperands, max_le_iff, Collection.levels_snd] at hlevels
      refine (h.operand operand written (fun part hpart => hsized part (.inl hpart))
        hlevels.1).bind fun _ => .map ?_ _
      exact operands rest _ (fun part hpart => hsized part (.inr hpart)) hlevels.2

theorem dict {entries : List (String × Value)} {written : List NodeId}
    (hsized : entries.length < 2 ^ 32 ∧ ∀ entry ∈ entries, entry.1.utf8ByteSize < 2 ^ 32)
    (hinside : ∀ part ∈ partsOfEntries entries, part.Sized)
    (hlevels : (levelsOfEntries entries written).1 ≤ depth) :
    Accepts (Reader.dict (Reader.value depth)) written
      (word entries.length ++ (writeEntries entries written).1,
        (writeEntries entries written).2) :=
  .field (fun _ _ _ => Reader.word_append hsized.1)
    ((h.entries entries written hsized.2 hinside hlevels).map _)

/-- A node that is written in full. -/
theorem collection {id : NodeId} {kind : CollectionKind} {attributes : List (String × Value)}
    {operands : List Collection} {ids : List Int64} {written : List NodeId}
    (hself : (Value.collection (.node id kind attributes operands ids)).Sized)
    (hattributes : ∀ part ∈ partsOfEntries attributes, part.Sized)
    (hoperands : ∀ part ∈ partsOfOperands operands, part.Sized)
    (habove : (levelsOfEntries attributes written).1 ≤ depth)
    (hbelow : (levelsOfOperands operands (writeEntries attributes written).2).1 ≤ depth) :
    Accepts (Reader.collection (Reader.value depth)) written
      (kind.code :: (word attributes.length ++ (writeEntries attributes written).1
          ++ (word ids.length ++ ids.flatMap fun id => bigEndian 8 id.toUInt64.toNat)
          ++ (word operands.length ++
            (writeOperands operands (writeEntries attributes written).2).1)),
        (writeOperands operands (writeEntries attributes written).2).2 ++ [id]) := by
  obtain ⟨hentries, hids, hcount⟩ :
      (attributes.length < 2 ^ 32 ∧ ∀ entry ∈ attributes, entry.1.utf8ByteSize < 2 ^ 32) ∧
        ids.length < 2 ^ 32 ∧ operands.length < 2 ^ 32 := hself
  have hlist (rest : List UInt8) (nodes : List Collection) (fresh : NodeId) :
      Reader.ids ⟨(word ids.length ++ ids.flatMap fun id => bigEndian 8 id.toUInt64.toNat) ++ rest,
        nodes, fresh⟩ = .ok ids ⟨rest, nodes, fresh⟩ := by
    rw [List.append_assoc]
    exact Reader.ids_append hids
  rw [← List.singleton_append, List.append_assoc, ← List.append_nil (writeOperands _ _).1]
  refine .field (fun _ _ _ => Reader.byte_cons kind.code) ?_
  rw [CollectionKind.ofCode?_code]
  refine (h.dict hentries hattributes habove).bind fun attributes => ?_
  refine .field hlist (.field (fun _ _ _ => Reader.word_append hcount) ?_)
  exact (h.operands operands _ hoperands hbelow).bind fun operands =>
    accepts_finish id kind attributes operands ids _

/-- A node, as an operand one level up. -/
theorem node (node : Collection) (written : List NodeId)
    (hsized : ∀ part ∈ node.parts, part.Sized) (hlevels : (node.levels written).1 ≤ depth + 1) :
    Accepts (Reader.operand (Reader.value (depth + 1))) written (node.write written) := by
  obtain ⟨id, kind, attributes, operands, ids⟩ := node
  simp only [Collection.parts, List.mem_cons, List.mem_append, forall_eq_or_imp] at hsized
  rw [Collection.write]
  cases hnumber : written.idxOf? id with
  | some number =>
      have hlt : number < written.length := by
        rw [List.idxOf?, List.findIdx?_eq_some_iff_getElem] at hnumber
        exact hnumber.1
      exact .operand .reference rfl (accepts_reference hlt)
  | none =>
      have hnew : id ∉ written := List.idxOf?_eq_none_iff.mp hnumber
      simp only [Collection.levels, hnew, if_false, Nat.add_le_add_iff_right, max_le_iff,
        levelsOfEntries_snd] at hlevels
      exact .operand .collection rfl (h.collection hsized.1
        (fun part hpart => hsized.2 part (.inl hpart))
        (fun part hpart => hsized.2 part (.inr hpart)) hlevels.1 hlevels.2)

end AcceptsWithin

/-! ### Values -/

/-- Every value whose lengths fit is read within the levels that it takes, and nothing after it is
touched. -/
theorem acceptsWithin (depth : Nat) : AcceptsWithin depth := by
  induction depth with
  | zero =>
      refine ⟨fun value written _ hlevels => ?_, fun node written _ hlevels => ?_⟩
      · exact absurd (Value.levels_pos value written) (not_lt.mpr hlevels)
      · exact absurd (Value.levels_pos (.collection node) written) (not_lt.mpr hlevels)
  | succ depth ih =>
      refine ⟨fun value written hsized hlevels => ?_, fun node written => ih.node node written⟩
      cases value with
      | none => exact .marked .none (.pure _)
      | int number =>
          exact .scalar rfl fun _ _ _ => Reader.bytes_append (length_bigEndian 8 _)
      | float number =>
          exact .scalar rfl fun _ _ _ => Reader.bytes_append (length_bigEndian 8 _)
      | string string =>
          exact .scalar rfl fun _ _ _ => Reader.text_append (hsized _ (List.mem_singleton_self _))
      | error message =>
          exact .scalar rfl fun _ _ _ => Reader.text_append (hsized _ (List.mem_singleton_self _))
      | binary bytes =>
          refine .marked .binary (.field
            (fun _ _ _ => Reader.word_append (hsized _ (List.mem_singleton_self _))) ?_)
          rw [← List.append_nil bytes]
          exact .field (fun _ _ _ => Reader.bytes_append (by rw [List.append_nil])) (.pure _)
      | list items =>
          simp only [Value.parts, List.mem_cons, forall_eq_or_imp] at hsized
          simp only [Value.levels, Nat.add_le_add_iff_right] at hlevels
          exact .marked .list (.field (fun _ _ _ => Reader.word_append hsized.1)
            ((ih.items items written hsized.2 hlevels).map _))
      | dict entries =>
          simp only [Value.parts, List.mem_cons, forall_eq_or_imp] at hsized
          simp only [Value.levels, Nat.add_le_add_iff_right] at hlevels
          exact .marked .dict ((ih.dict hsized.1 hsized.2 hlevels).map _)
      | collection node => exact (ih.node node written hsized hlevels).of_operand

end Wire

end MediaCatalog
