import MediaCatalog.Proofs.Value.Equality
import MediaCatalog.Proofs.Wire.Canonical
import MediaCatalog.Proofs.Wire.RoundTrip
import MediaCatalog.Proofs.Wire.Truncation

/-!
What an encoding tells of its value. A reader with enough levels reads any encoding, however deep,
so two values that are written with the same bytes have a common copy and are copies of each other:
they have the same content in the same order and share the same nodes. Equality does not see more
than that, so it holds between them unless NaN stands in them.
-/

namespace MediaCatalog

open Wire

theorem encodeAll_singleton (value : Value) : encodeAll [value] = value.encode := by
  simp [encodeAll, writeItems, Value.encode]

variable {value first second : Value}

/-! ### Reading without a limit -/

/-- The number of nodes is the length of the table of their identities. -/
theorem transmissible_of_table (h : WellFormed [value]) (hlengths : value.FitsLengths)
    (htable : (value.write []).2.length < 2 ^ 32) : Transmissible [value] where
  toWellFormed := h
  sized part hpart := hlengths part (by simpa [partsOfItems] using hpart)
  counted := by
    have hgrown := (h.shared.table_grownBy 0).1
    refine lt_of_le_of_lt ?_ htable
    refine (List.subperm_of_subset (List.nodup_dedup _) fun id hid => ?_).length_le
    obtain ⟨node, hnode, rfl⟩ := List.mem_map.mp (List.mem_dedup.mp hid)
    simpa [passageOf, writeItems] using hgrown.covered node hnode

/-- With enough levels a value is read back from its encoding, under other identities, and the
reader knows as many nodes as were written. -/
theorem Transmissible.read_encode (h : Transmissible [value]) {depth : Nat}
    (hdepth : depthOf [value] ≤ depth) :
    ∃ copy nodes next, Reader.value depth ⟨value.encode, [], 0⟩ = .ok copy ⟨[], nodes, next⟩ ∧
      CopyOf [value] [copy] ∧ nodes.length = (value.write []).2.length := by
  have hread := Passage.value_write (h.numbered 0) value [] depth []
    (fun part hpart => h.admits 0 part (by simpa [partsOfItems] using hpart))
    (by simp [passageOf, writeItems]) (by simpa [depthOf, levelsOfItems] using hdepth)
  rw [List.append_nil] at hread
  exact ⟨_, _, _, hread, ⟨_, h.rename_injOn 0, rfl⟩, List.length_map _⟩

/-! ### Values with the same encoding -/

/-- The second value has no more nodes than the first, whose encoding it has: the reader of both
knows them all in the end. -/
theorem table_le_of_encode_eq (h : Transmissible [first]) (hlengths : second.FitsLengths)
    (hsame : first.encode = second.encode) :
    (second.write []).2.length ≤ (first.write []).2.length := by
  obtain ⟨copy, nodes, next, hread, -, htable⟩ :=
    h.read_encode (le_max_left _ (depthOf [second]))
  obtain ⟨result, nodes', next', hresult, hknown⟩ :=
    hlengths.accepts (le_max_right (depthOf [first]) _) [] [] 0 (Nat.zero_le _)
  rw [List.append_nil, ← Value.encode, ← hsame, hread] at hresult
  obtain ⟨-, hstate⟩ := EStateM.Result.ok.inj hresult
  obtain ⟨-, rfl, -⟩ := ReadState.mk.inj hstate
  rwa [← htable]

/-- Values with the same encoding are copies of each other. It is enough that the numbers of the
nodes fit for one of them. -/
theorem copyOf_of_encode_eq (h : Transmissible [first]) (h' : WellFormed [second])
    (hlengths : second.FitsLengths) (hsame : first.encode = second.encode) :
    CopyOf [first] [second] := by
  have hsmall : (first.write []).2.length < 2 ^ 32 := by
    simpa [passageOf, writeItems] using (h.numbered 0).small
  have hsecond := transmissible_of_table h' hlengths
    ((table_le_of_encode_eq h hlengths hsame).trans_lt hsmall)
  obtain ⟨copy, _, _, hread, hcopy, -⟩ := h.read_encode (le_max_left _ (depthOf [second]))
  obtain ⟨copy', _, _, hread', hcopy', -⟩ :=
    hsecond.read_encode (le_max_right (depthOf [first]) _)
  rw [hsame, hread'] at hread
  obtain ⟨rfl, -⟩ := EStateM.Result.ok.inj hread
  exact hcopy.trans hcopy'.symm

/-- A copy equals its original unless NaN stands in it. -/
theorem CopyOf.equal_iff (h : CopyOf [first] [second]) (hkeys : first.KeysDistinct) :
    first.equal second ↔ ¬ first.HoldsNaN := by
  obtain ⟨rename, -, hsecond⟩ := h
  obtain rfl := List.singleton_inj.mp hsecond
  rw [Value.equal_renamed, Value.equal_self_iff hkeys]

theorem encode_eq_iff_copyOf (h : Transmissible [first]) (h' : WellFormed [second])
    (hlengths : second.FitsLengths) :
    first.encode = second.encode ↔ CopyOf [first] [second] := by
  refine ⟨copyOf_of_encode_eq h h' hlengths, fun hcopy => ?_⟩
  rw [← encodeAll_singleton, ← encodeAll_singleton, hcopy.encodeAll_eq]

/-! ### The laws of equality -/

/-- Equality of values is a partial equivalence that fits the wire. It changes places and chains; a
value equals itself exactly if NaN stands nowhere in it. The order of keys and the identities of
nodes do not matter to it: dictionaries are equal if they have the same keys and equal values under
them, and a node may be exchanged for a copy. Two values whose lengths fit into four bytes, the
length of the table of their nodes included, have the same encoding only if they are copies of each
other, however deep they nest, and then they are equal exactly if NaN stands nowhere in them. -/
theorem equality_is_partial_equivalence :
    (∀ first second : Value, first.KeysDistinct → first.equal second → second.equal first) ∧
    (∀ first second third : Value,
      first.equal second → second.equal third → first.equal third) ∧
    (∀ value : Value, value.KeysDistinct → (value.equal value ↔ ¬ value.HoldsNaN)) ∧
    (∀ entries others : Dict Value, Dict.Distinct entries →
      ((Value.dict entries).equal (.dict others) ↔ (Dict.keys entries).Perm (Dict.keys others) ∧
        ∀ key value other, (key, value) ∈ entries → (key, other) ∈ others → value.equal other)) ∧
    (∀ (first second : Value) (rename : NodeId → NodeId),
      first.equal (second.renamed rename) = first.equal second) ∧
    ∀ first second : Value, WellFormed [first] → WellFormed [second] →
      first.FitsLengths → second.FitsLengths → (first.write []).2.length < 2 ^ 32 →
        (first.encode = second.encode ↔ CopyOf [first] [second]) ∧
          (first.encode = second.encode → (first.equal second ↔ ¬ first.HoldsNaN)) := by
  refine ⟨fun _ _ => Value.equal_symm, fun _ _ _ => Value.equal_trans,
    fun _ => Value.equal_self_iff, fun entries others hdistinct => ?_,
    fun first second rename => Value.equal_renamed rename first second,
    fun first second h h' hlengths hlengths' htable => ?_⟩
  · rw [Value.dict_equal_iff, ← Dict.Matches.iff_perm hdistinct]
    simp
  · have hcopy := encode_eq_iff_copyOf (transmissible_of_table h hlengths htable) h' hlengths'
    exact ⟨hcopy, fun hsame => (hcopy.mp hsame).equal_iff fun part hpart =>
      h.keyed part (by simpa [partsOfItems] using hpart)⟩

/-- A silent gain and a saved list. -/
def gainFirst : Dict Value :=
  [("gain", .float 0), ("saved", .collection (.node 4 .idlist [] [] [1, 2]))]

/-- The same with the keys in the other order, a negative zero and another node. -/
def savedFirst : Dict Value :=
  [("saved", .collection (.node 9 .idlist [] [] [1, 2])), ("gain", .float (-0))]

/-- NaN in an attribute of a node. -/
def nanFilter : Value := .list [.collection (.node 0 .filter [("value", .float Float.nan)] [] [])]

theorem wellFormed_sharingUnion : WellFormed [sharingUnion] where
  shared := by
    simp [sharingUnion, WellShared, SharedNodes, nodesOfItems, nodesOfEntries, nodesOfOperands,
      Value.nodes, Collection.nodes, Collection.id]
  keyed := by
    simp [sharingUnion, partsOfItems, partsOfEntries, partsOfOperands, Value.parts,
      Collection.parts, Value.Keyed, Dict.Distinct, Dict.keys, Collection.attributes]

/-- Dictionaries in either order with zeros of either sign, a NaN inside a node, and a node that is
shared in two values with the same encoding. -/
theorem equality_is_partial_equivalence_sharing :
    (Value.dict gainFirst).KeysDistinct ∧ (Value.dict gainFirst).equal (.dict savedFirst) ∧
      (Value.dict savedFirst).equal (.dict gainFirst) ∧
      (Value.dict gainFirst).equal (.dict gainFirst) ∧
      (Dict.keys gainFirst).Perm (Dict.keys savedFirst) ∧
      nanFilter.KeysDistinct ∧ nanFilter.HoldsNaN ∧ ¬ nanFilter.equal nanFilter ∧
      WellFormed [sharingUnion] ∧ WellFormed [sharingUnion.renamed (· + 3)] ∧
      (sharingUnion.write []).2.length < 2 ^ 32 ∧
      sharingUnion.encode = (sharingUnion.renamed (· + 3)).encode ∧ ¬ sharingUnion.HoldsNaN ∧
      sharingUnion.equal (sharingUnion.renamed (· + 3)) := by
  obtain ⟨hsymm, htrans, hself, hdict, -, hencode⟩ := equality_is_partial_equivalence
  have hkeys : (Value.dict gainFirst).KeysDistinct := by
    simp [Value.KeysDistinct, gainFirst, partsOfEntries, partsOfOperands, Value.parts,
      Collection.parts, Value.Keyed, Dict.Distinct, Dict.keys, Collection.attributes]
  have hequal : (Value.dict gainFirst).equal (.dict savedFirst) := by decide +kernel
  have hback : (Value.dict savedFirst).equal (.dict gainFirst) := hsymm _ _ hkeys hequal
  have hperm := ((hdict _ _ hkeys.of_dict.1).mp hequal).1
  have hnan : nanFilter.KeysDistinct := by
    simp [Value.KeysDistinct, nanFilter, partsOfItems, partsOfEntries, partsOfOperands, Value.parts,
      Collection.parts, Value.Keyed, Dict.Distinct, Dict.keys, Collection.attributes]
  have hholds : nanFilter.HoldsNaN := by
    simp [Value.HoldsNaN, nanFilter, partsOfItems, partsOfEntries, partsOfOperands, Value.parts,
      Collection.parts, Double.isNaN_ofFloat]
  have hcopy : CopyOf [sharingUnion] [sharingUnion.renamed (· + 3)] :=
    ⟨_, (add_left_injective 3).injOn, rfl⟩
  have hfits : (sharingUnion.renamed (· + 3)).FitsLengths := by
    intro part hpart
    rw [Value.parts_renamed] at hpart
    obtain ⟨source, hsource, rfl⟩ := List.mem_map.mp hpart
    exact (fitsLengths_sharingUnion source hsource).renamed _
  have hcopied := wellFormed_sharingUnion.copy hcopy
  have htable : (sharingUnion.write []).2.length < 2 ^ 32 := by decide
  have hfree : ¬ sharingUnion.HoldsNaN := by
    simp [Value.HoldsNaN, sharingUnion, partsOfEntries, partsOfOperands, Value.parts,
      Collection.parts]
  obtain ⟨hiff, hvalues⟩ :=
    hencode _ _ wellFormed_sharingUnion hcopied fitsLengths_sharingUnion hfits htable
  have hsame := hiff.mpr hcopy
  exact ⟨hkeys, hequal, hback, htrans _ _ _ hequal hback, hperm, hnan, hholds,
    fun h => (hself _ hnan).mp h hholds, wellFormed_sharingUnion, hcopied, htable, hsame, hfree,
    (hvalues hsame).mpr hfree⟩

end MediaCatalog
