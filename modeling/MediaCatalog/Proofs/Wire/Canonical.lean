import MediaCatalog.Proofs.Wire.Retrace
import MediaCatalog.Proofs.Wire.Nesting

/-!
One encoding. A message in which no table repeats a key is the encoding of the values that are read
from it. Encoding does not see under which identities nodes are known, so values and what they share
have no second such message.
-/

namespace MediaCatalog

open Wire

section Renaming

variable {rename : NodeId → NodeId} {domain : List NodeId}

/-- A copy is written with the same bytes and leaves the renamed table. -/
def WrittenRenamed (rename : NodeId → NodeId) (domain : List NodeId)
    (written written' : List UInt8 × List NodeId) : Prop :=
  written' = (written.1, written.2.map rename) ∧ written.2 ⊆ domain

theorem idxOf?_map (hinj : Set.InjOn rename {id | id ∈ domain}) {id : NodeId} (hid : id ∈ domain)
    {written : List NodeId} (hw : written ⊆ domain) :
    (written.map rename).idxOf? (rename id) = written.idxOf? id := by
  induction written with
  | nil => rfl
  | cons first rest ih =>
    obtain ⟨hfirst, hrest⟩ := List.cons_subset.mp hw
    have hsame : (rename first == rename id) = (first == id) := by
      apply Bool.eq_iff_iff.mpr
      rw [beq_iff_eq, beq_iff_eq]
      exact hinj.eq_iff hfirst hid
    rw [List.map_cons, List.idxOf?_cons, List.idxOf?_cons, hsame, ih hrest]

mutual

/-- Renaming that keeps nodes apart does not show in what is written. -/
theorem Value.write_renamed (hinj : Set.InjOn rename {id | id ∈ domain}) :
    ∀ (value : Value) (written : List NodeId), value.nodes.map Collection.id ⊆ domain →
      written ⊆ domain →
      WrittenRenamed rename domain (value.write written)
        ((value.renamed rename).write (written.map rename))
  | .none, _, _, hw | .int _, _, _, hw | .float _, _, _, hw | .string _, _, _, hw
  | .binary _, _, _, hw | .error _, _, _, hw => ⟨rfl, hw⟩
  | .list items, written, hn, hw => by
      obtain ⟨hitems, htable⟩ := writeItems_renamed hinj items written hn hw
      refine ⟨?_, htable⟩
      simp only [Value.renamed, Value.write, hitems, length_renamedItems]
  | .dict entries, written, hn, hw => by
      obtain ⟨hentries, htable⟩ := writeEntries_renamed hinj entries written hn hw
      refine ⟨?_, htable⟩
      simp only [Value.renamed, Value.write, hentries, length_renamedEntries]
  | .collection node, written, hn, hw => Collection.write_renamed hinj node written hn hw

theorem Collection.write_renamed (hinj : Set.InjOn rename {id | id ∈ domain}) :
    ∀ (node : Collection) (written : List NodeId), node.nodes.map Collection.id ⊆ domain →
      written ⊆ domain →
      WrittenRenamed rename domain (node.write written)
        ((node.renamed rename).write (written.map rename))
  | .node id kind attributes operands ids, written, hn, hw => by
      simp only [Collection.nodes, List.map_append, List.append_subset, List.map_cons,
        List.map_nil, List.cons_subset, List.nil_subset, and_true, Collection.id] at hn
      obtain ⟨⟨hattributes, hoperands⟩, hid⟩ := hn
      simp only [Collection.renamed, Collection.write, idxOf?_map hinj hid hw]
      cases written.idxOf? id with
      | some number => exact ⟨rfl, hw⟩
      | none =>
        obtain ⟨habove, hw'⟩ := writeEntries_renamed hinj attributes written hattributes hw
        obtain ⟨hbelow, hw''⟩ := writeOperands_renamed hinj operands _ hoperands hw'
        refine ⟨?_, List.append_subset.mpr ⟨hw'', List.cons_subset.mpr ⟨hid, List.nil_subset _⟩⟩⟩
        simp only [habove, hbelow, length_renamedEntries, length_renamedOperands, List.map_append,
          List.map_cons, List.map_nil]

theorem writeItems_renamed (hinj : Set.InjOn rename {id | id ∈ domain}) :
    ∀ (items : List Value) (written : List NodeId),
      (nodesOfItems items).map Collection.id ⊆ domain → written ⊆ domain →
      WrittenRenamed rename domain (writeItems items written)
        (writeItems (renamedItems rename items) (written.map rename))
  | [], _, _, hw => ⟨rfl, hw⟩
  | item :: rest, written, hn, hw => by
      simp only [nodesOfItems, List.map_append, List.append_subset] at hn
      obtain ⟨hhere, hw'⟩ := Value.write_renamed hinj item written hn.1 hw
      obtain ⟨hafter, hw''⟩ := writeItems_renamed hinj rest _ hn.2 hw'
      exact ⟨by simp only [renamedItems, writeItems, hhere, hafter], hw''⟩

theorem writeEntries_renamed (hinj : Set.InjOn rename {id | id ∈ domain}) :
    ∀ (entries : List (String × Value)) (written : List NodeId),
      (nodesOfEntries entries).map Collection.id ⊆ domain → written ⊆ domain →
      WrittenRenamed rename domain (writeEntries entries written)
        (writeEntries (renamedEntries rename entries) (written.map rename))
  | [], _, _, hw => ⟨rfl, hw⟩
  | (_, value) :: rest, written, hn, hw => by
      simp only [nodesOfEntries, List.map_append, List.append_subset] at hn
      obtain ⟨hhere, hw'⟩ := Value.write_renamed hinj value written hn.1 hw
      obtain ⟨hafter, hw''⟩ := writeEntries_renamed hinj rest _ hn.2 hw'
      exact ⟨by simp only [renamedEntries, writeEntries, hhere, hafter], hw''⟩

theorem writeOperands_renamed (hinj : Set.InjOn rename {id | id ∈ domain}) :
    ∀ (operands : List Collection) (written : List NodeId),
      (nodesOfOperands operands).map Collection.id ⊆ domain → written ⊆ domain →
      WrittenRenamed rename domain (writeOperands operands written)
        (writeOperands (renamedOperands rename operands) (written.map rename))
  | [], _, _, hw => ⟨rfl, hw⟩
  | operand :: rest, written, hn, hw => by
      simp only [nodesOfOperands, List.map_append, List.append_subset] at hn
      obtain ⟨hhere, hw'⟩ := Collection.write_renamed hinj operand written hn.1 hw
      obtain ⟨hafter, hw''⟩ := writeOperands_renamed hinj rest _ hn.2 hw'
      exact ⟨by simp only [renamedOperands, writeOperands, hhere, hafter], hw''⟩

end

end Renaming

/-- Copies are encoded as their originals. -/
theorem CopyOf.encodeAll_eq {values copies : List Value} (h : CopyOf values copies) :
    encodeAll copies = encodeAll values := by
  obtain ⟨rename, hinj, rfl⟩ := h
  have hwritten := (writeItems_renamed hinj values [] (List.Subset.refl _) (List.nil_subset _)).1
  rw [encodeAll, ← renamedItems_eq_map, ← List.map_nil (f := rename), hwritten, encodeAll]

/-- The keys of a dictionary or of attributes. -/
def Wire.ReadEvent.keys? : ReadEvent → Option (List String)
  | .table keys => some keys
  | _ => none

/-- Reading the values of a message from its front to its end, or to an error. -/
def readAll (input : List UInt8) (next : NodeId) :
    EStateM.Result WireError CountingState (List Value) :=
  Counting.values input.length { CountingState.initial next with input }

/-- The tables that are read from a message, those of nodes included: the keys of each in the order
in which they came. -/
def tablesRead (input : List UInt8) (next : NodeId) : List (List String) :=
  (Counting.final (readAll input next)).events.filterMap ReadEvent.keys?

/-- A message is decoded as it is read. -/
theorem readAll_of_decodeAll {input : List UInt8} {next : NodeId} {values : List Value}
    (hdecode : (decodeAll input next).1 = .ok values) :
    ∃ after, readAll input next = .ok values after := by
  have hanswer : (answered (readAll input next) fun values _ => values).1.1 = .ok values :=
    (congrArg (·.1.1) (@decodeAll_eq_answered (.initial next) rfl input)).symm.trans hdecode
  cases hread : readAll input next with
  | error cause after =>
    rw [hread] at hanswer
    cases hanswer
  | ok results after =>
    rw [hread] at hanswer
    exact ⟨after, congrArg (EStateM.Result.ok · after) (Except.ok.inj hanswer)⟩

/-- A message without repeated keys is written again as it was read. -/
theorem encodeAll_of_distinct {input : List UInt8} {next : NodeId} {values : List Value}
    (hdecode : (decodeAll input next).1 = .ok values)
    (hkeys : ∀ keys ∈ tablesRead input next, keys.Nodup) : encodeAll values = input := by
  obtain ⟨after, hread⟩ := readAll_of_decodeAll hdecode
  have hdistinct : DistinctKeys after.events := by
    rw [tablesRead, hread] at hkeys
    exact fun keys hmem => hkeys keys (List.mem_filterMap.mpr ⟨_, hmem, rfl⟩)
  have hstart := (CountingState.recorded_initial next).with_input input
  have hinput := ((Counting.Repeats.values _).retraced hread hstart hdistinct).input
  rw [Counting.input_of_values_ok hread, List.append_nil] at hinput
  exact hinput.symm

/-- Encoding undoes decoding on every message in which no table repeats a key. No other such message
holds the same values with the same nodes shared. -/
theorem encodeAll_decodeAll {input : List UInt8} {next : NodeId} {values : List Value}
    (hdecode : (decodeAll input next).1 = .ok values)
    (hkeys : ∀ keys ∈ tablesRead input next, keys.Nodup) :
    encodeAll values = input ∧
      ∀ (other : List UInt8) (next' : NodeId) (copies : List Value),
        (decodeAll other next').1 = .ok copies →
        (∀ keys ∈ tablesRead other next', keys.Nodup) →
        CopyOf values copies → other = input := by
  refine ⟨encodeAll_of_distinct hdecode hkeys, fun other next' copies hother hkeys' hcopy => ?_⟩
  calc other = encodeAll copies := (encodeAll_of_distinct hother hkeys').symm
    _ = encodeAll values := hcopy.encodeAll_eq
    _ = input := encodeAll_of_distinct hdecode hkeys

/-- A dictionary with a number and a node, and after it the same node. -/
def sharedNodeMessage : List UInt8 :=
  [6, 0, 0, 0, 2, 0, 0, 0, 1, 97, 2, 63, 240, 0, 0, 0, 0, 0, 0, 0, 0, 0, 1, 98,
    7, 8, 0, 0, 0, 0, 0, 0, 0, 1, 0, 0, 0, 0, 0, 0, 0, 9, 0, 0, 0, 0, 9, 0, 0, 0, 0]

theorem tablesRead_sharedNodeMessage : tablesRead sharedNodeMessage 30 = [[], ["a", "b"]] := by
  decide +kernel

/-- It is read, and its two values are written as the same bytes. -/
theorem encodeAll_decodeAll_sharedNode :
    ∃ values, (decodeAll sharedNodeMessage 30).1 = .ok values ∧ values.length = 2 ∧
      (∀ keys ∈ tablesRead sharedNodeMessage 30, keys.Nodup) ∧
      encodeAll values = sharedNodeMessage := by
  have hread : (decodeAll sharedNodeMessage 30).1.toOption.map List.length = some 2 := by
    decide +kernel
  have hkeys : ∀ keys ∈ tablesRead sharedNodeMessage 30, keys.Nodup := by
    rw [tablesRead_sharedNodeMessage]
    decide
  cases hdecode : (decodeAll sharedNodeMessage 30).1 with
  | error cause =>
    rw [hdecode] at hread
    cases hread
  | ok values =>
    rw [hdecode] at hread
    exact ⟨values, rfl, Option.some.inj hread, hkeys, (encodeAll_decodeAll hdecode hkeys).1⟩

end MediaCatalog
