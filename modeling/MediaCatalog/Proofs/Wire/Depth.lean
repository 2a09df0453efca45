import MediaCatalog.Proofs.Wire.Passage

/-!
The limit of nesting. Only the reader counts levels, so a value that nests too deep is written
like any other. It is turned down where its first position below the limit starts: everything
in front of that position is read as it was written.
-/

namespace MediaCatalog.Wire

namespace Passage

variable {passage : Passage}

/-- The bytes that were written with the value do not fit into the levels that are left. -/
def TooDeep (passage : Passage) {α : Type} (read : Reader α) (input : List UInt8)
    (written : List NodeId) : Prop :=
  ∃ state, read (passage.state input written) = .error .nestingTooDeep state

theorem tooDeep_of_no_levels (byte : UInt8) (input : List UInt8) (written : List NodeId) :
    passage.TooDeep (Reader.value 0) (byte :: input) written :=
  ⟨_, rfl⟩

/-- What a value reads after its marker decides for the value. -/
theorem TooDeep.marked {depth : Nat} {input : List UInt8} {written : List NodeId} (marker : Marker)
    (h : passage.TooDeep (Reader.body depth marker) input written) :
    passage.TooDeep (Reader.value (depth + 1)) (marker.code :: input) written := by
  obtain ⟨state, hstate⟩ := h
  exact ⟨state, by rw [Reader.value_marker, hstate]⟩

mutual

/-- A value that nests deeper than the levels that are left is turned down. -/
theorem value_tooDeep (hn : passage.Numbered) :
    ∀ (value : Value) (written : List NodeId) (depth : Nat) (rest : List UInt8),
      (∀ part ∈ value.parts, passage.Admits part) →
      (value.write written).2 <+: passage.table → depth < (value.levels written).1 →
      passage.TooDeep (Reader.value depth) ((value.write written).1 ++ rest) written
  | .none, _, 0, _, _, _, _ | .int _, _, 0, _, _, _, _ | .float _, _, 0, _, _, _, _
  | .string _, _, 0, _, _, _, _ | .binary _, _, 0, _, _, _, _ | .error _, _, 0, _, _, _, _
  | .list _, _, 0, _, _, _, _ | .dict _, _, 0, _, _, _, _ => tooDeep_of_no_levels _ _ _
  | .none, _, depth + 1, _, _, _, hlevels | .int _, _, depth + 1, _, _, _, hlevels
  | .float _, _, depth + 1, _, _, _, hlevels | .string _, _, depth + 1, _, _, _, hlevels
  | .binary _, _, depth + 1, _, _, _, hlevels | .error _, _, depth + 1, _, _, _, hlevels => by
      simp [Value.levels] at hlevels
  | .list items, written, depth + 1, rest, hparts, htable, hlevels => by
      simp only [Value.parts, List.mem_cons, forall_eq_or_imp] at hparts
      simp only [Value.levels, Nat.add_lt_add_iff_right] at hlevels
      obtain ⟨state, hitems⟩ := items_tooDeep hn items written depth rest hparts.2 htable hlevels
      simp only [Value.write, List.cons_append, List.append_assoc]
      refine TooDeep.marked .list ⟨state, ?_⟩
      rw [Reader.body, Reader.bind_ok (Reader.word_append hparts.1.sized),
        Reader.bind_error hitems]
  | .dict entries, written, depth + 1, rest, hparts, htable, hlevels => by
      simp only [Value.parts, List.mem_cons, forall_eq_or_imp] at hparts
      simp only [Value.levels, Nat.add_lt_add_iff_right] at hlevels
      obtain ⟨state, hentries⟩ := entries_tooDeep hn entries written depth rest
        hparts.1.sized.2 hparts.2 htable hlevels
      simp only [Value.write, List.cons_append, List.append_assoc]
      refine TooDeep.marked .dict ⟨state, ?_⟩
      rw [Reader.body, Reader.bind_error (Reader.dict_error hparts.1.sized.1 hentries)]
  | .collection node, written, depth, rest, hparts, htable, hlevels =>
      node_tooDeep hn node written depth rest hparts htable hlevels

theorem node_tooDeep (hn : passage.Numbered) :
    ∀ (node : Collection) (written : List NodeId) (depth : Nat) (rest : List UInt8),
      (∀ part ∈ node.parts, passage.Admits part) →
      (node.write written).2 <+: passage.table → depth < (node.levels written).1 →
      passage.TooDeep (Reader.value depth) ((node.write written).1 ++ rest) written
  | .node id kind attributes operands ids, written, 0, rest, _, _, _ => by
      simp only [Collection.write]
      split <;> exact tooDeep_of_no_levels _ _ _
  | .node id kind attributes operands ids, written, depth + 1, rest, hparts, htable, hlevels => by
      simp only [Collection.parts, List.mem_cons, List.mem_append, forall_eq_or_imp] at hparts
      obtain ⟨hself, hinside⟩ := hparts
      by_cases hid : id ∈ written
      · simp [Collection.levels, hid] at hlevels
      have hnumber : written.idxOf? id = none := List.idxOf?_eq_none_iff.mpr hid
      obtain ⟨⟨hlength, hkeys⟩, hids, hcount⟩ :
          (attributes.length < 2 ^ 32 ∧ ∀ entry ∈ attributes, entry.1.utf8ByteSize < 2 ^ 32) ∧
            ids.length < 2 ^ 32 ∧ operands.length < 2 ^ 32 := hself.sized
      have hkeyed : Dict.Distinct attributes := hself.keyed
      simp only [Collection.levels, hid, if_false, Nat.add_lt_add_iff_right,
        levelsOfEntries_snd] at hlevels
      simp only [Collection.write, hnumber] at htable ⊢
      have hgrown := writtenByOperands_grows operands (writeEntries attributes written).2
      have htable' := (List.prefix_append _ [id]).trans htable
      simp only [List.cons_append, List.append_assoc]
      apply TooDeep.marked .collection
      -- The attributes are written first, so the operands decide only if they fit.
      by_cases habove : depth < (levelsOfEntries attributes written).1
      · obtain ⟨state, hattributes⟩ := entries_tooDeep hn attributes written depth _ hkeys
          (fun part hpart => hinside part (.inl hpart)) (hgrown.trans htable') habove
        refine ⟨state, ?_⟩
        rw [Reader.body, Reader.bind_error (Reader.collection_attributes_error
          (Reader.dict_error hlength hattributes))]
      · have hattributes := entries_write hn attributes written depth
          (word ids.length ++ ((ids.flatMap fun id => bigEndian 8 id.toUInt64.toNat) ++
            (word operands.length ++ ((writeOperands operands
              (writeEntries attributes written).2).1 ++ rest))))
          hkeys (fun part hpart => hinside part (.inl hpart)) (hgrown.trans htable')
          (not_lt.mp habove)
        obtain ⟨state, hoperands⟩ := operands_tooDeep hn operands
          (writeEntries attributes written).2 depth rest
          (fun part hpart => hinside part (.inr hpart)) htable'
          ((lt_max_iff.mp hlevels).resolve_left habove)
        refine ⟨state, ?_⟩
        rw [Reader.body, Reader.bind_error (Reader.collection_operands_error
          (Reader.dict_ok hlength hattributes (distinct_renamed hkeyed _))
          (Reader.ids_append hids) (Reader.word_append hcount) hoperands)]

theorem items_tooDeep (hn : passage.Numbered) :
    ∀ (items : List Value) (written : List NodeId) (depth : Nat) (rest : List UInt8),
      (∀ part ∈ partsOfItems items, passage.Admits part) →
      (writeItems items written).2 <+: passage.table → depth < (levelsOfItems items written).1 →
      passage.TooDeep (Reader.many (Reader.value depth) items.length)
        ((writeItems items written).1 ++ rest) written
  | [], _, _, _, _, _, hlevels => by simp [levelsOfItems] at hlevels
  | item :: items, written, depth, rest, hparts, htable, hlevels => by
      simp only [partsOfItems, List.mem_append] at hparts
      simp only [levelsOfItems, lt_max_iff, Value.levels_snd] at hlevels
      have htable' := (writtenByItems_grows items _).trans htable
      simp only [writeItems, List.append_assoc, List.length_cons]
      -- The first item is too deep, or it is read and a later one is.
      by_cases hhere : depth < (item.levels written).1
      · obtain ⟨state, hfirst⟩ := value_tooDeep hn item written depth
          ((writeItems items (item.write written).2).1 ++ rest)
          (fun part hpart => hparts part (.inl hpart)) htable' hhere
        exact ⟨state, Reader.many_error hfirst⟩
      · have hfirst := value_write hn item written depth
          ((writeItems items (item.write written).2).1 ++ rest)
          (fun part hpart => hparts part (.inl hpart)) htable' (not_lt.mp hhere)
        obtain ⟨state, hrest⟩ := items_tooDeep hn items (item.write written).2 depth rest
          (fun part hpart => hparts part (.inr hpart)) htable (hlevels.resolve_left hhere)
        exact ⟨state, Reader.many_later_error hfirst hrest⟩

theorem entries_tooDeep (hn : passage.Numbered) :
    ∀ (entries : List (String × Value)) (written : List NodeId) (depth : Nat)
      (rest : List UInt8), (∀ entry ∈ entries, entry.1.utf8ByteSize < 2 ^ 32) →
      (∀ part ∈ partsOfEntries entries, passage.Admits part) →
      (writeEntries entries written).2 <+: passage.table →
      depth < (levelsOfEntries entries written).1 →
      passage.TooDeep (Reader.many (Reader.entry (Reader.value depth)) entries.length)
        ((writeEntries entries written).1 ++ rest) written
  | [], _, _, _, _, _, _, hlevels => by simp [levelsOfEntries] at hlevels
  | (key, value) :: entries, written, depth, rest, hkeys, hparts, htable, hlevels => by
      simp only [List.mem_cons, forall_eq_or_imp] at hkeys
      simp only [partsOfEntries, List.mem_append] at hparts
      simp only [levelsOfEntries, lt_max_iff, Value.levels_snd] at hlevels
      have htable' := (writtenByEntries_grows entries _).trans htable
      simp only [writeEntries, List.append_assoc, List.length_cons]
      by_cases hhere : depth < (value.levels written).1
      · obtain ⟨state, hfirst⟩ := value_tooDeep hn value written depth
          ((writeEntries entries (value.write written).2).1 ++ rest)
          (fun part hpart => hparts part (.inl hpart)) htable' hhere
        exact ⟨state, Reader.many_error (Reader.entry_error hkeys.1 hfirst)⟩
      · have hfirst := value_write hn value written depth
          ((writeEntries entries (value.write written).2).1 ++ rest)
          (fun part hpart => hparts part (.inl hpart)) htable' (not_lt.mp hhere)
        obtain ⟨state, hrest⟩ := entries_tooDeep hn entries (value.write written).2 depth rest
          hkeys.2 (fun part hpart => hparts part (.inr hpart)) htable
          (hlevels.resolve_left hhere)
        exact ⟨state, Reader.many_later_error (Reader.entry_ok hkeys.1 hfirst) hrest⟩

theorem operands_tooDeep (hn : passage.Numbered) :
    ∀ (operands : List Collection) (written : List NodeId) (depth : Nat) (rest : List UInt8),
      (∀ part ∈ partsOfOperands operands, passage.Admits part) →
      (writeOperands operands written).2 <+: passage.table →
      depth < (levelsOfOperands operands written).1 →
      passage.TooDeep (Reader.many (Reader.operand (Reader.value depth)) operands.length)
        ((writeOperands operands written).1 ++ rest) written
  | [], _, _, _, _, _, hlevels => by simp [levelsOfOperands] at hlevels
  | operand :: operands, written, depth, rest, hparts, htable, hlevels => by
      simp only [partsOfOperands, List.mem_append] at hparts
      simp only [levelsOfOperands, lt_max_iff, Collection.levels_snd] at hlevels
      have htable' := (writtenByOperands_grows operands _).trans htable
      simp only [writeOperands, List.append_assoc, List.length_cons]
      by_cases hhere : depth < (operand.levels written).1
      · obtain ⟨state, hfirst⟩ := node_tooDeep hn operand written depth
          ((writeOperands operands (operand.write written).2).1 ++ rest)
          (fun part hpart => hparts part (.inl hpart)) htable' hhere
        exact ⟨state, Reader.many_error (Reader.operand_error hfirst)⟩
      · have hfirst := node_write hn operand written depth
          ((writeOperands operands (operand.write written).2).1 ++ rest)
          (fun part hpart => hparts part (.inl hpart)) htable' (not_lt.mp hhere)
        obtain ⟨state, hrest⟩ := operands_tooDeep hn operands (operand.write written).2 depth rest
          (fun part hpart => hparts part (.inr hpart)) htable (hlevels.resolve_left hhere)
        exact ⟨state, Reader.many_later_error (Reader.operand_ok hfirst) hrest⟩

end

end Passage

end MediaCatalog.Wire
