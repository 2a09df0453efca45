import MediaCatalog.Proofs.Wire.Scalar
import MediaCatalog.Proofs.Wire.Written

/-!
Reading back what was written. Writer and reader number nodes on their own, and only the reader
counts levels. The passage of a message fixes what both should agree on: which node an identity
stands for, in which order the nodes are numbered, and from where the reader draws its
identities. At every point of the message the state of the reader is then the one that follows
from the table of the writer.
-/

namespace MediaCatalog.Wire

/-- What writer and reader of a message agree on. -/
structure Passage where
  /-- The node that an identity stands for. -/
  origin : NodeId → Collection
  /-- The identities of all nodes of the message, in the order of their numbers. -/
  table : List NodeId
  /-- The first identity that the reader draws. -/
  base : NodeId

namespace Passage

/-- The identity that the reader gives to a node. -/
def rename (passage : Passage) (id : NodeId) : NodeId := passage.base + passage.table.idxOf id

/-- The state of the reader in front of `input` when the nodes `written` were read. -/
abbrev state (passage : Passage) (input : List UInt8) (written : List NodeId) : ReadState where
  input := input
  nodes := written.map fun id => (passage.origin id).renamed passage.rename
  next := passage.base + written.length

/-- A part of a value that the message can hold. -/
structure Admits (passage : Passage) (part : Value) : Prop where
  keyed : part.Keyed
  sized : part.Sized
  origin : ∀ node, part = .collection node → passage.origin node.id = node

/-- The numbers of the message fit. -/
structure Numbered (passage : Passage) : Prop where
  nodup : passage.table.Nodup
  small : passage.table.length < 2 ^ 32

variable {passage : Passage}

theorem finish_state {written : List NodeId} {id : NodeId} {kind : CollectionKind}
    {attributes : List (String × Value)} {operands : List Collection} {ids : List Int64}
    (hn : passage.Numbered) (htable : written ++ [id] <+: passage.table)
    (horigin : passage.origin id = .node id kind attributes operands ids) (rest : List UInt8) :
    Reader.finish kind (renamedEntries passage.rename attributes)
        (renamedOperands passage.rename operands) ids (passage.state rest written) =
      .ok ((Collection.node id kind attributes operands ids).renamed passage.rename)
        (passage.state rest (written ++ [id])) := by
  obtain ⟨after, hafter⟩ := htable
  have hnew : id ∉ written := by
    have hnodup := hn.nodup
    rw [← hafter, List.nodup_append, List.nodup_append] at hnodup
    exact fun hid => hnodup.1.2.2 id hid id (List.mem_singleton_self id) rfl
  have hnumber : passage.table.idxOf id = written.length := by
    rw [← hafter, List.append_assoc, List.idxOf_append_of_notMem hnew]
    simp
  have hrename : passage.rename id = passage.base + written.length := by
    rw [rename, hnumber]
  simp [Reader.finish, state, horigin, Collection.renamed, hrename, Nat.add_assoc]

theorem reference_state {written : List NodeId} {id : NodeId} {number : Nat} {node : Collection}
    (hn : passage.Numbered) (htable : written <+: passage.table)
    (hnumber : written.idxOf? id = some number) (horigin : passage.origin id = node)
    (rest : List UInt8) :
    Reader.reference (passage.state (word number ++ rest) written) =
      .ok (node.renamed passage.rename) (passage.state rest written) := by
  obtain ⟨hid, hlt⟩ : written[number]? = some id ∧ number < written.length := by
    rw [List.idxOf?, List.findIdx?_eq_some_iff_getElem] at hnumber
    obtain ⟨hlt, hsame, -⟩ := hnumber
    exact ⟨by simpa [List.getElem?_eq_getElem hlt] using hsame, hlt⟩
  have hsmall : number < 2 ^ 32 := hlt.trans_le (htable.length_le.trans hn.small.le)
  rw [Reader.reference]
  rw [Reader.bind_ok (Reader.word_append hsmall), Reader.bind_get]
  simp only [List.getElem?_map, hid, Option.map_some, horigin]
  rfl

mutual

/-- A value that nests within the depth is read back, and nothing after it is touched. -/
theorem value_write (hn : passage.Numbered) :
    ∀ (value : Value) (written : List NodeId) (depth : Nat) (rest : List UInt8),
      (∀ part ∈ value.parts, passage.Admits part) →
      (value.write written).2 <+: passage.table → (value.levels written).1 ≤ depth →
      Reader.value depth (passage.state ((value.write written).1 ++ rest) written) =
        .ok (value.renamed passage.rename) (passage.state rest (value.write written).2)
  | .none, written, depth + 1, rest, _, _, _ => rfl
  | .int number, written, depth + 1, rest, _, _, _ => by
      simp only [Value.write, List.cons_append]
      rw [Reader.value_marker .int, Reader.body,
        Reader.bind_ok (Reader.bytes_append (length_bigEndian 8 _)), ofNat_ofBigEndian_bigEndian,
        Int64.toInt64_toUInt64]
      rfl
  | .float number, written, depth + 1, rest, _, _, _ => by
      simp only [Value.write, List.cons_append]
      rw [Reader.value_marker .float, Reader.body,
        Reader.bind_ok (Reader.bytes_append (length_bigEndian 8 _)), ofNat_ofBigEndian_bigEndian]
      rfl
  | .string string, written, depth + 1, rest, hparts, _, _ => by
      have hsize := (hparts _ (List.mem_singleton_self _)).sized
      simp only [Value.write, List.cons_append]
      rw [Reader.value_marker .string, Reader.body, Reader.bind_ok (Reader.text_append hsize)]
      rfl
  | .binary bytes, written, depth + 1, rest, hparts, _, _ => by
      have hsize := (hparts _ (List.mem_singleton_self _)).sized
      simp only [Value.write, List.cons_append, List.append_assoc]
      rw [Reader.value_marker .binary, Reader.body, Reader.bind_ok (Reader.word_append hsize),
        Reader.bind_ok (Reader.bytes_append rfl)]
      rfl
  | .error message, written, depth + 1, rest, hparts, _, _ => by
      have hsize := (hparts _ (List.mem_singleton_self _)).sized
      simp only [Value.write, List.cons_append]
      rw [Reader.value_marker .error, Reader.body, Reader.bind_ok (Reader.text_append hsize)]
      rfl
  | .list items, written, depth + 1, rest, hparts, htable, hlevels => by
      simp only [Value.parts, List.mem_cons, forall_eq_or_imp] at hparts
      simp only [Value.levels, Nat.add_le_add_iff_right] at hlevels
      have hitems := items_write hn items written depth rest hparts.2 htable hlevels
      simp only [Value.write, List.cons_append, List.append_assoc]
      rw [Reader.value_marker .list, Reader.body,
        Reader.bind_ok (Reader.word_append hparts.1.sized), Reader.bind_ok hitems]
      rfl
  | .dict entries, written, depth + 1, rest, hparts, htable, hlevels => by
      simp only [Value.parts, List.mem_cons, forall_eq_or_imp] at hparts
      simp only [Value.levels, Nat.add_le_add_iff_right] at hlevels
      have hentries := entries_write hn entries written depth rest hparts.1.sized.2 hparts.2
        htable hlevels
      simp only [Value.write, List.cons_append, List.append_assoc]
      rw [Reader.value_marker .dict, Reader.body,
        Reader.bind_ok (Reader.dict_ok hparts.1.sized.1 hentries
          (distinct_renamed hparts.1.keyed _))]
      rfl
  | .collection node, written, depth, rest, hparts, htable, hlevels =>
      node_write hn node written depth rest hparts htable hlevels
  -- Each value takes a level of its own, so nothing is left to write at depth 0.
  | .none, _, 0, _, _, _, hlevels | .int _, _, 0, _, _, _, hlevels
  | .float _, _, 0, _, _, _, hlevels | .string _, _, 0, _, _, _, hlevels
  | .binary _, _, 0, _, _, _, hlevels | .error _, _, 0, _, _, _, hlevels
  | .list _, _, 0, _, _, _, hlevels | .dict _, _, 0, _, _, _, hlevels => by
      simp [Value.levels] at hlevels

theorem node_write (hn : passage.Numbered) :
    ∀ (node : Collection) (written : List NodeId) (depth : Nat) (rest : List UInt8),
      (∀ part ∈ node.parts, passage.Admits part) →
      (node.write written).2 <+: passage.table → (node.levels written).1 ≤ depth →
      Reader.value depth (passage.state ((node.write written).1 ++ rest) written) =
        .ok (.collection (node.renamed passage.rename))
          (passage.state rest (node.write written).2)
  | .node id kind attributes operands ids, written, 0, rest, _, _, hlevels => by
      simp only [Collection.levels] at hlevels
      split at hlevels <;> simp at hlevels
  | .node id kind attributes operands ids, written, depth + 1, rest, hparts, htable, hlevels => by
      simp only [Collection.parts, List.mem_cons, List.mem_append, forall_eq_or_imp] at hparts
      obtain ⟨hself, hinside⟩ := hparts
      have horigin := hself.origin _ rfl
      simp only [Collection.write] at htable ⊢
      cases hnumber : written.idxOf? id with
      | some number =>
          -- The node is known to both sides under this number.
          simp only [hnumber] at htable ⊢
          rw [List.cons_append, Reader.value_marker .reference, Reader.body,
            Reader.bind_ok (reference_state hn htable hnumber horigin rest)]
          rfl
      | none =>
          -- A new node gets its number after what is inside it, on both sides.
          simp only [hnumber] at htable ⊢
          have hnew : id ∉ written := List.idxOf?_eq_none_iff.mp hnumber
          simp only [Collection.levels, hnew, if_false, Nat.add_le_add_iff_right] at hlevels
          obtain ⟨⟨hlength, hkeys⟩, hids, hcount⟩ :
              (attributes.length < 2 ^ 32 ∧ ∀ entry ∈ attributes, entry.1.utf8ByteSize < 2 ^ 32) ∧
                ids.length < 2 ^ 32 ∧ operands.length < 2 ^ 32 := hself.sized
          have hkeyed : Dict.Distinct attributes := hself.keyed
          have hgrown := writtenByOperands_grows operands (writeEntries attributes written).2
          have htable' := (List.prefix_append _ [id]).trans htable
          have hattributes := entries_write hn attributes written depth
            (word ids.length ++ ((ids.flatMap fun id => bigEndian 8 id.toUInt64.toNat) ++
              (word operands.length ++ ((writeOperands operands
                (writeEntries attributes written).2).1 ++ rest))))
            hkeys (fun part hpart => hinside part (.inl hpart)) (hgrown.trans htable')
            ((le_max_left _ _).trans hlevels)
          have hbelow := operands_write hn operands (writeEntries attributes written).2 depth rest
            (fun part hpart => hinside part (.inr hpart)) htable'
            (by
              rw [levelsOfEntries_snd] at hlevels
              exact (le_max_right _ _).trans hlevels)
          simp only [List.cons_append, List.append_assoc]
          rw [Reader.value_marker .collection, Reader.body,
            Reader.bind_ok (Reader.collection_ok
              (Reader.dict_ok hlength hattributes (distinct_renamed hkeyed _))
              (Reader.ids_append hids) (Reader.word_append hcount) hbelow
              (finish_state hn htable horigin rest))]
          rfl

theorem items_write (hn : passage.Numbered) :
    ∀ (items : List Value) (written : List NodeId) (depth : Nat) (rest : List UInt8),
      (∀ part ∈ partsOfItems items, passage.Admits part) →
      (writeItems items written).2 <+: passage.table → (levelsOfItems items written).1 ≤ depth →
      Reader.many (Reader.value depth) items.length
          (passage.state ((writeItems items written).1 ++ rest) written) =
        .ok (renamedItems passage.rename items) (passage.state rest (writeItems items written).2)
  | [], _, _, _, _, _, _ => rfl
  | item :: items, written, depth, rest, hparts, htable, hlevels => by
      simp only [partsOfItems, List.mem_append] at hparts
      simp only [levelsOfItems, max_le_iff, Value.levels_snd] at hlevels
      have hfirst := value_write hn item written depth
        ((writeItems items (item.write written).2).1 ++ rest)
        (fun part hpart => hparts part (.inl hpart))
        ((writtenByItems_grows items _).trans htable) hlevels.1
      have hrest := items_write hn items (item.write written).2 depth rest
        (fun part hpart => hparts part (.inr hpart)) htable hlevels.2
      simp only [writeItems, List.append_assoc, List.length_cons]
      exact Reader.many_ok hfirst hrest

theorem entries_write (hn : passage.Numbered) :
    ∀ (entries : List (String × Value)) (written : List NodeId) (depth : Nat)
      (rest : List UInt8), (∀ entry ∈ entries, entry.1.utf8ByteSize < 2 ^ 32) →
      (∀ part ∈ partsOfEntries entries, passage.Admits part) →
      (writeEntries entries written).2 <+: passage.table →
      (levelsOfEntries entries written).1 ≤ depth →
      Reader.many (Reader.entry (Reader.value depth)) entries.length
          (passage.state ((writeEntries entries written).1 ++ rest) written) =
        .ok (renamedEntries passage.rename entries)
          (passage.state rest (writeEntries entries written).2)
  | [], _, _, _, _, _, _, _ => rfl
  | (key, value) :: entries, written, depth, rest, hkeys, hparts, htable, hlevels => by
      simp only [List.mem_cons, forall_eq_or_imp] at hkeys
      simp only [partsOfEntries, List.mem_append] at hparts
      simp only [levelsOfEntries, max_le_iff, Value.levels_snd] at hlevels
      have hfirst := value_write hn value written depth
        ((writeEntries entries (value.write written).2).1 ++ rest)
        (fun part hpart => hparts part (.inl hpart))
        ((writtenByEntries_grows entries _).trans htable) hlevels.1
      have hrest := entries_write hn entries (value.write written).2 depth rest hkeys.2
        (fun part hpart => hparts part (.inr hpart)) htable hlevels.2
      simp only [writeEntries, List.append_assoc, List.length_cons]
      exact Reader.many_ok (Reader.entry_ok hkeys.1 hfirst) hrest

theorem operands_write (hn : passage.Numbered) :
    ∀ (operands : List Collection) (written : List NodeId) (depth : Nat) (rest : List UInt8),
      (∀ part ∈ partsOfOperands operands, passage.Admits part) →
      (writeOperands operands written).2 <+: passage.table →
      (levelsOfOperands operands written).1 ≤ depth →
      Reader.many (Reader.operand (Reader.value depth)) operands.length
          (passage.state ((writeOperands operands written).1 ++ rest) written) =
        .ok (renamedOperands passage.rename operands)
          (passage.state rest (writeOperands operands written).2)
  | [], _, _, _, _, _, _ => rfl
  | operand :: operands, written, depth, rest, hparts, htable, hlevels => by
      simp only [partsOfOperands, List.mem_append] at hparts
      simp only [levelsOfOperands, max_le_iff, Collection.levels_snd] at hlevels
      have hfirst := node_write hn operand written depth
        ((writeOperands operands (operand.write written).2).1 ++ rest)
        (fun part hpart => hparts part (.inl hpart))
        ((writtenByOperands_grows operands _).trans htable) hlevels.1
      have hrest := operands_write hn operands (operand.write written).2 depth rest
        (fun part hpart => hparts part (.inr hpart)) htable hlevels.2
      simp only [writeOperands, List.append_assoc, List.length_cons]
      exact Reader.many_ok (Reader.operand_ok hfirst) hrest

end

end Passage

end MediaCatalog.Wire
