import MediaCatalog.Proofs.Wire.Depth

/-!
The round trip of a message. A decoder that reads the values of a message one after another
gives back copies of them and leaves what follows the message, provided nothing nests deeper
than the limit. A message with a position below the limit is turned down for its nesting.
-/

namespace MediaCatalog

open Wire

/-- Read `count` values one after another: the values and what is left. -/
def Decoder.decodeMany (decoder : Decoder) : (count : Nat) → List UInt8 →
    Build (Except WireError (List Value × List UInt8) × Decoder)
  | 0, input => return (.ok ([], input), decoder)
  | count + 1, input => do
    match ← decoder.decode input with
    | (.error error, decoder) => return (.error error, decoder)
    | (.ok (value, rest), decoder) =>
      match ← decoder.decodeMany count rest with
      | (.error error, decoder) => return (.error error, decoder)
      | (.ok (values, rest), decoder) => return (.ok (value :: values, rest), decoder)

/-! ### The passage of a message -/

/-- The passage of the values of one message. -/
def Wire.passageOf (values : List Value) (next : NodeId) : Passage where
  origin id := ((nodesOfItems values).find? (·.id == id)).getD default
  table := (writeItems values []).2
  base := next

section Shared

variable {values : List Value} (next : NodeId)

theorem WellShared.covers (h : WellShared values) :
    Covers (passageOf values next).origin (nodesOfItems values) := by
  intro node hnode
  have hsome : ((nodesOfItems values).find? (·.id == node.id)).isSome :=
    List.find?_isSome.mpr ⟨node, hnode, by simp⟩
  obtain ⟨found, hfound⟩ := Option.isSome_iff_exists.mp hsome
  have hsame : found.id = node.id := by simpa using List.find?_some hfound
  simp only [passageOf, hfound, Option.getD_some]
  exact h found (List.mem_of_find?_eq_some hfound) node hnode hsame

theorem WellShared.table_grownBy (h : WellShared values) :
    GrownBy (nodesOfItems values) [] (passageOf values next).table ∧
      SoundTable (passageOf values next).origin (passageOf values next).table :=
  writtenByItems_grownBy values [] (h.covers next) ⟨List.nodup_nil, by simp⟩

end Shared

namespace Transmissible

variable {values : List Value} (next : NodeId)

theorem admits (h : Transmissible values) :
    ∀ part ∈ partsOfItems values, (passageOf values next).Admits part := by
  intro part hpart
  refine ⟨h.keyed part hpart, h.sized part hpart, ?_⟩
  rintro node rfl
  exact h.shared.covers next node ((mem_nodesOfItems_iff node values).mpr hpart)

theorem numbered (h : Transmissible values) : (passageOf values next).Numbered := by
  obtain ⟨hgrown, hsound⟩ := h.shared.table_grownBy next
  refine ⟨hsound.nodup, lt_of_le_of_lt ?_ h.counted⟩
  refine (List.subperm_of_subset hsound.nodup fun id hid => ?_).length_le
  obtain ⟨node, hnode, rfl⟩ := (hgrown.only id hid).resolve_left (by simp)
  exact List.mem_dedup.mpr (List.mem_map_of_mem hnode)

/-- Different nodes get different identities. -/
theorem rename_injOn (h : Transmissible values) :
    Set.InjOn (passageOf values next).rename {id | id ∈ identities values} := by
  intro first hfirst second _ hsame
  obtain ⟨node, hnode, rfl⟩ := List.mem_map.mp hfirst
  have hmem := (h.shared.table_grownBy next).1.covered node hnode
  simp only [Passage.rename, Nat.add_left_cancel_iff] at hsame
  exact (List.idxOf_inj hmem).mp hsame

end Transmissible

/-! ### Decoding in the middle of a message -/

theorem Value.write_ne_nil (value : Value) (written : List NodeId) :
    (value.write written).1 ≠ [] := by
  cases value with
  | collection node =>
      obtain ⟨id, kind, attributes, operands, ids⟩ := node
      simp only [Value.write, Collection.write]
      split <;> simp
  | _ => simp [Value.write]

namespace Wire.Passage

variable {passage : Passage}

/-- The decoder when the nodes `written` were read. -/
def decoder (passage : Passage) (written : List NodeId) : Decoder :=
  ⟨(passage.state [] written).nodes⟩

theorem decode_write (hn : passage.Numbered) (value : Value) (written : List NodeId)
    (hparts : ∀ part ∈ value.parts, passage.Admits part)
    (htable : (value.write written).2 <+: passage.table)
    (hlevels : (value.levels written).1 ≤ maxDepth) (rest : List UInt8) :
    (passage.decoder written).decode ((value.write written).1 ++ rest)
        (passage.base + written.length) =
      ((.ok (value.renamed passage.rename, rest), passage.decoder (value.write written).2),
        passage.base + (value.write written).2.length) := by
  have hvalue := value_write hn value written maxDepth rest hparts htable hlevels
  simp only [state] at hvalue
  simp [Decoder.decode, decoder, hvalue]

theorem decode_tooDeep (hn : passage.Numbered) (value : Value) (written : List NodeId)
    (hparts : ∀ part ∈ value.parts, passage.Admits part)
    (htable : (value.write written).2 <+: passage.table)
    (hlevels : maxDepth < (value.levels written).1) (rest : List UInt8) :
    ∃ decoder next, (passage.decoder written).decode ((value.write written).1 ++ rest)
        (passage.base + written.length) = ((.error .nestingTooDeep, decoder), next) := by
  obtain ⟨state, hvalue⟩ := value_tooDeep hn value written maxDepth rest hparts htable hlevels
  simp only [Passage.state] at hvalue
  exact ⟨⟨state.nodes⟩, state.next, by simp [Decoder.decode, decoder, hvalue]⟩

theorem decodeMany_write (hn : passage.Numbered) (rest : List UInt8) :
    ∀ (items : List Value) (written : List NodeId),
      (∀ part ∈ partsOfItems items, passage.Admits part) →
      (writeItems items written).2 <+: passage.table →
      (levelsOfItems items written).1 ≤ maxDepth →
      (passage.decoder written).decodeMany items.length ((writeItems items written).1 ++ rest)
          (passage.base + written.length) =
        ((.ok (items.map (Value.renamed passage.rename), rest),
            passage.decoder (writeItems items written).2),
          passage.base + (writeItems items written).2.length)
  | [], _, _, _, _ => rfl
  | item :: items, written, hparts, htable, hlevels => by
      simp only [partsOfItems, List.mem_append] at hparts
      simp only [levelsOfItems, max_le_iff, Value.levels_snd] at hlevels
      have hfirst := decode_write hn item written (fun part hpart => hparts part (.inl hpart))
        ((writtenByItems_grows items _).trans htable) hlevels.1
        ((writeItems items (item.write written).2).1 ++ rest)
      have hrest := decodeMany_write hn rest items (item.write written).2
        (fun part hpart => hparts part (.inr hpart)) htable hlevels.2
      simp only [writeItems, List.append_assoc, List.length_cons, Decoder.decodeMany]
      simp only [bind, StateT.bind, hfirst, hrest]
      rfl

/-- Values in front of the one that nests too deep are decoded; each took some of the input,
so there are turns left for it. -/
theorem decodeUpTo_tooDeep (hn : passage.Numbered) :
    ∀ (items : List Value) (written : List NodeId) (fuel : Nat),
      (∀ part ∈ partsOfItems items, passage.Admits part) →
      (writeItems items written).2 <+: passage.table →
      maxDepth < (levelsOfItems items written).1 →
      (writeItems items written).1.length ≤ fuel →
      ((passage.decoder written).decodeUpTo fuel (writeItems items written).1
        (passage.base + written.length)).1.1 = .error .nestingTooDeep
  | [], _, _, _, _, hlevels, _ => by simp [levelsOfItems] at hlevels
  | item :: items, written, fuel, hparts, htable, hlevels, hfuel => by
      simp only [partsOfItems, List.mem_append] at hparts
      simp only [levelsOfItems, lt_max_iff, Value.levels_snd] at hlevels
      have htable' := (writtenByItems_grows items _).trans htable
      have hitem := item.write_ne_nil written
      obtain ⟨byte, tail, hbytes⟩ := List.exists_cons_of_ne_nil hitem
      simp only [writeItems, List.length_append] at hfuel ⊢
      -- The input is not empty, so there is a turn left.
      obtain ⟨fuel, rfl⟩ : ∃ turns, fuel = turns + 1 := by
        have := List.length_pos_iff.mpr hitem
        exact ⟨fuel - 1, by omega⟩
      rw [hbytes, List.cons_append, Decoder.decodeUpTo, ← List.cons_append, ← hbytes]
      · by_cases hhere : maxDepth < (item.levels written).1
        · obtain ⟨decoder, next, hfirst⟩ := decode_tooDeep hn item written
            (fun part hpart => hparts part (.inl hpart)) htable' hhere
            (writeItems items (item.write written).2).1
          simp only [bind, StateT.bind, hfirst]
          rfl
        · have hfirst := decode_write hn item written
            (fun part hpart => hparts part (.inl hpart)) htable' (not_lt.mp hhere)
            (writeItems items (item.write written).2).1
          -- The item took at least one byte, so the others still have enough turns.
          have hrest := decodeUpTo_tooDeep hn items (item.write written).2 fuel
            (fun part hpart => hparts part (.inr hpart)) htable (hlevels.resolve_left hhere)
            (by
              have := List.length_pos_iff.mpr hitem
              omega)
          rcases hresult : (passage.decoder (item.write written).2).decodeUpTo fuel
            (writeItems items (item.write written).2).1
            (passage.base + (item.write written).2.length) with ⟨⟨outcome, decoder⟩, next⟩
          rw [hresult] at hrest
          obtain rfl : outcome = .error .nestingTooDeep := hrest
          simp only [bind, StateT.bind, hfirst, hresult]
          rfl
      · simp

end Wire.Passage

/-! ### Whole messages -/

/-- The round trip of the format, for values that a message can hold. Within the limit one decoder
gives back copies of the values, with the same occurrences being one node, and leaves the bytes
after the message; what nests deeper is turned down. -/
theorem decode_encodeAll {values : List Value} (h : Transmissible values) (rest : List UInt8)
    (next : NodeId) :
    (depthOf values ≤ maxDepth →
      ∃ copies decoder after,
        Decoder.decodeMany {} values.length (encodeAll values ++ rest) next =
          ((.ok (copies, rest), decoder), after) ∧ CopyOf values copies ∧
        ∀ i j, i < (identities values).length → j < (identities values).length →
          ((identities copies)[i]? = (identities copies)[j]? ↔
            (identities values)[i]? = (identities values)[j]?)) ∧
    (maxDepth < depthOf values →
      (decodeAll (encodeAll values) next).1 = .error .nestingTooDeep) := by
  have hn := h.numbered next
  have hparts := h.admits next
  constructor
  · intro hlevels
    have hmany := Passage.decodeMany_write hn rest values [] hparts List.prefix_rfl hlevels
    have hcopy : CopyOf values (values.map (Value.renamed (passageOf values next).rename)) :=
      ⟨_, h.rename_injOn next, rfl⟩
    exact ⟨_, _, _, hmany, hcopy, hcopy.same_node_iff⟩
  · intro hlevels
    have hupTo := Passage.decodeUpTo_tooDeep hn values [] (encodeAll values).length hparts
      List.prefix_rfl hlevels le_rfl
    exact hupTo

/-- So many lists inside one another. -/
def Value.tower : (height : Nat) → Value
  | 0 => .none
  | height + 1 => .list [tower height]

theorem Value.levels_tower (height : Nat) (written : List NodeId) :
    (tower height).levels written = (height + 1, written) := by
  induction height with
  | zero => rfl
  | succ height ih => simp [tower, Value.levels, levelsOfItems, ih]

theorem Value.nodes_tower (height : Nat) : (tower height).nodes = [] := by
  induction height with
  | zero => rfl
  | succ height ih => simp [tower, Value.nodes, nodesOfItems, ih]

theorem Value.parts_tower (height : Nat) :
    ∀ part ∈ (tower height).parts, part.Keyed ∧ part.Sized := by
  induction height with
  | zero => simp [tower, Value.parts, Value.Keyed, Value.Sized]
  | succ height ih =>
      simp only [tower, Value.parts, partsOfItems, List.append_nil, List.mem_cons,
        forall_eq_or_imp]
      exact ⟨by simp [Value.Keyed, Value.Sized], ih⟩

/-- A message may hold a tower of any height. -/
theorem transmissible_tower (height : Nat) : Transmissible [Value.tower height] where
  shared := by simp [WellShared, SharedNodes, nodesOfItems, Value.nodes_tower]
  keyed part hpart := (Value.parts_tower height part (by simpa [partsOfItems] using hpart)).1
  sized part hpart := (Value.parts_tower height part (by simpa [partsOfItems] using hpart)).2
  counted := by simp [identities, nodesOfItems, Value.nodes_tower]

/-- A node that stands in a list and twice below another node. After it in the list stands a NaN
that has a sign. -/
def sharingValues : List Value :=
  let shared : Collection := .node 4 .idlist [("name", .string "a")] [] [1, 2]
  [.list [.collection shared, .float (.ofBits 0xfff8000000000001)],
    .collection (.node 9 .union [] [shared, shared] [])]

theorem transmissible_sharingValues : Transmissible sharingValues where
  shared := by
    simp [sharingValues, WellShared, SharedNodes, nodesOfItems, nodesOfEntries, nodesOfOperands,
      Value.nodes, Collection.nodes, Collection.id]
  keyed := by
    simp [sharingValues, partsOfItems, partsOfEntries, partsOfOperands, Value.parts,
      Collection.parts, Value.Keyed, Dict.Distinct, Dict.keys, Collection.attributes]
  sized := by
    simp [sharingValues, partsOfItems, partsOfEntries, partsOfOperands, Value.parts,
      Collection.parts, Value.Sized, Collection.attributes, Collection.ids, Collection.operands]
    decide
  counted := by decide

/-- Nodes that are shared, and a tower that is too high by one. -/
theorem decode_encodeAll_sharing_and_tower :
    (∃ copies decoder after,
      Decoder.decodeMany {} 2 (encodeAll sharingValues ++ [255]) 30 =
          ((.ok (copies, [255]), decoder), after) ∧ CopyOf sharingValues copies) ∧
      (decodeAll (encodeAll [Value.tower maxDepth]) 30).1 = .error .nestingTooDeep := by
  constructor
  · obtain ⟨copies, decoder, after, hmany, hcopy, -⟩ :=
      (decode_encodeAll transmissible_sharingValues [255] 30).1 (by decide)
    exact ⟨copies, decoder, after, hmany, hcopy⟩
  · apply (decode_encodeAll (transmissible_tower maxDepth) [] 30).2
    simp [depthOf, levelsOfItems, Value.levels_tower]

end MediaCatalog
