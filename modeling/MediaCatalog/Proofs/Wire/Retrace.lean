import MediaCatalog.Proofs.Wire.Recording
import MediaCatalog.Proofs.Wire.Spelling

/-!
Writing down what was read. The table of a reader holds the identities that it gave to nodes, in the
order of their numbers. A writer that starts from the values that came out has the same table at
each point: a node that stood in the message in full is new to it, and a node that stood there as a
number is known under that number. So the writer goes through the message once more, field by field,
and repeats it, provided that no table repeated a key.
-/

namespace MediaCatalog

open Wire

/-! ### The writer -/

/-- Write one thing after another. -/
def writeEach {α : Type} (write : α → List NodeId → List UInt8 × List NodeId) :
    List α → List NodeId → List UInt8 × List NodeId
  | [], written => ([], written)
  | first :: rest, written =>
    let (head, written) := write first written
    let (tail, written) := writeEach write rest written
    (head ++ tail, written)

theorem writeItems_eq (items : List Value) (written : List NodeId) :
    writeItems items written = writeEach Value.write items written := by
  induction items generalizing written with
  | nil => rfl
  | cons item rest ih => simp only [writeItems, writeEach, ih]

theorem writeOperands_eq (operands : List Collection) (written : List NodeId) :
    writeOperands operands written = writeEach Collection.write operands written := by
  induction operands generalizing written with
  | nil => rfl
  | cons operand rest ih => simp only [writeOperands, writeEach, ih]

def writeEntry (entry : String × Value) (written : List NodeId) : List UInt8 × List NodeId :=
  let (bytes, written) := entry.2.write written
  (text entry.1 ++ bytes, written)

theorem writeEntries_eq (entries : List (String × Value)) (written : List NodeId) :
    writeEntries entries written = writeEach writeEntry entries written := by
  induction entries generalizing written with
  | nil => rfl
  | cons entry rest ih => simp only [writeEntries, writeEach, writeEntry, ih]

/-- The entries of a table, after their number. -/
def writeTable (entries : List (String × Value)) (written : List NodeId) :
    List UInt8 × List NodeId :=
  let (bytes, written) := writeEach writeEntry entries written
  (word entries.length ++ bytes, written)

namespace Collection

/-- A node that the writer does not know is written in full. -/
theorem write_of_notMem {id : NodeId} {written : List NodeId} (hnew : id ∉ written)
    (kind : CollectionKind) (attributes : List (String × Value)) (operands : List Collection)
    (ids : List Int64) :
    (node id kind attributes operands ids).write written =
      let (above, written) := writeTable attributes written
      let (below, written) := writeEach write operands written
      (Marker.collection.code :: kind.code ::
        (above ++ ((word ids.length ++ ids.flatMap fun id => bigEndian 8 id.toUInt64.toNat) ++
          (word operands.length ++ below))), written ++ [id]) := by
  simp only [write, List.idxOf?_eq_none_iff.mpr hnew, writeTable, writeEntries_eq,
    writeOperands_eq, List.append_assoc]

/-- A node that the writer knows is written as its number. -/
theorem write_of_idxOf? {node : Collection} {written : List NodeId} {number : Nat}
    (h : written.idxOf? node.id = some number) :
    node.write written = (Marker.reference.code :: word number, written) := by
  cases node with
  | node id kind attributes operands ids =>
    have hid : written.idxOf? id = some number := h
    simp only [write, hid]

end Collection

namespace Wire

/-! ### Reader and writer -/

/-- From one state of a reader to a later one it went through the bytes that were written, and its
table became the one that the writer leaves. -/
structure Retraced (written : List UInt8 × List NodeId) (state state' : ReadState) : Prop where
  input : state.input = written.1 ++ state'.input
  table : written.2 = state'.table

/-- When this much of a value is written, the writer repeats what the reader goes through. -/
def Continues (head : List UInt8) (value : Value) (state state' : ReadState) : Prop :=
  ∃ front table, value.write state.table = (head ++ front, table) ∧
    Retraced (front, table) state state'

variable {α β : Type}

namespace Retraced

variable {state middle state' : ReadState}

theorem refl (state : ReadState) : Retraced ([], state.table) state state := ⟨rfl, rfl⟩

theorem trans {first second : List UInt8 × List NodeId} (h : Retraced first state middle)
    (h' : Retraced second middle state') :
    Retraced (first.1 ++ second.1, second.2) state state' where
  input := by rw [h.input, h'.input, List.append_assoc]
  table := h'.table

end Retraced

namespace Continues

variable {value : Value} {state middle state' : ReadState}

/-- What stood in front of the rest of a value. -/
theorem back {head front : List UInt8} (h : Continues (head ++ front) value middle state')
    (hfront : Retraced (front, state.table) state middle) : Continues head value state state' := by
  obtain ⟨rest, table, hwrite, hrest⟩ := h
  have htable : state.table = middle.table := hfront.table
  refine ⟨front ++ rest, table, ?_, hfront.trans hrest⟩
  rw [htable, hwrite, List.append_assoc]

theorem retraced (h : Continues [] value state state') :
    Retraced (value.write state.table) state state' := by
  obtain ⟨front, table, hwrite, hfront⟩ := h
  rw [hwrite]
  exact hfront

end Continues

/-! ### Fields -/

section Fields

variable {state state' : ReadState}

theorem Reader.Spells.retraced {read : Reader α} {print : α → List UInt8} (h : Spells read print)
    {result : α} (hread : read state = .ok result state') :
    Retraced (print result, state.table) state state' := by
  have hspelt := h hread
  have htable := congrArg ReadState.table hspelt
  exact ⟨congrArg ReadState.input hspelt, htable⟩

/-- A value that is one field. -/
theorem continues_field {marker : Marker} {read : Reader α} {print : α → List UInt8}
    (make : α → Value) {value : Value} {levels : Nat} (hread : Reader.Spells read print)
    (hbody : Reader.body levels marker = do return make (← read))
    (hwrite : ∀ result written, (make result).write written =
      (marker.code :: print result, written))
    (hrun : Reader.body levels marker state = .ok value state') :
    Continues [marker.code] value state state' := by
  rw [hbody] at hrun
  obtain ⟨result, middle, hresult, hvalue⟩ := Reader.exists_of_bind_ok hrun
  obtain ⟨rfl, rfl⟩ := EStateM.Result.ok.inj hvalue
  exact ⟨_, _, hwrite result state.table, hread.retraced hresult⟩

/-- A value without values inside. -/
theorem continues_scalar {marker : Marker} {value : Value} {levels : Nat}
    (hrun : Reader.body levels marker state = .ok value state')
    (hscalar : marker ∉ Marker.composite) : Continues [marker.code] value state state' := by
  cases marker with
  | none =>
    obtain ⟨rfl, rfl⟩ := EStateM.Result.ok.inj hrun
    exact ⟨_, _, rfl, .refl state⟩
  | int =>
    refine continues_field (fun bits => .int bits.toInt64) Reader.spells_bits ?_ ?_ hrun
    · simp only [Reader.body, bind_assoc, pure_bind]
    · intro bits written
      rw [Value.write, UInt64.toUInt64_toInt64]
  | float =>
    refine continues_field (fun bits => .float (.ofBits bits)) Reader.spells_bits ?_
      (fun _ _ => rfl) hrun
    simp only [Reader.body, bind_assoc, pure_bind]
  | string => exact continues_field .string Reader.spells_text rfl (fun _ _ => rfl) hrun
  | binary =>
    refine continues_field .binary Reader.spells_binary ?_ (fun _ _ => rfl) hrun
    simp only [Reader.body, bind_assoc]
  | error => exact continues_field .error Reader.spells_text rfl (fun _ _ => rfl) hrun
  | list | dict | collection | reference => exact absurd hscalar (by decide)

end Fields

/-- No table that was read repeats a key. -/
def DistinctKeys (events : List ReadEvent) : Prop := ∀ keys, .table keys ∈ events → keys.Nodup

theorem DistinctKeys.of_prefix {events events' : List ReadEvent} (h : DistinctKeys events')
    (hbegins : events <+: events') : DistinctKeys events :=
  fun keys hkeys => h keys (hbegins.subset hkeys)

/-! ### Steps -/

namespace Counting

variable {state middle state' : CountingState}

theorem exists_of_lift_ok {read : Reader α} {result : α} (h : lift read state = .ok result state') :
    ∃ after, read state.toReadState = .ok result after ∧
      state' = { state with toReadState := after } := by
  rw [lift] at h
  split at h
  · next answer after hread =>
    obtain ⟨rfl, rfl⟩ := EStateM.Result.ok.inj h
    exact ⟨after, hread, rfl⟩
  · cases h

theorem exists_of_within_ok {read : CountingReader α} {result : α}
    (h : within read state = .ok result state') :
    state.depth + 1 ≤ maxDepth ∧ ∃ after,
      read { state with depth := state.depth + 1, events := state.events ++ [.opened] } =
        .ok result after ∧
      state' = { after with depth := after.depth - 1, events := after.events ++ [.closed] } := by
  rw [within] at h
  by_cases hdeep : maxDepth < state.depth + 1
  · rw [if_pos hdeep] at h
    cases h
  rw [if_neg hdeep] at h
  split at h
  · next answer after hread =>
    obtain ⟨rfl, rfl⟩ := EStateM.Result.ok.inj h
    exact ⟨Nat.not_lt.mp hdeep, after, hread, rfl⟩
  · cases h

theorem Safe.ok {read : CountingReader α} {result : α} (h : Safe read)
    (hread : read state = .ok result state') (hs : state.Recorded) :
    state'.Recorded ∧ state.events <+: state'.events ∧ state.next ≤ state'.next := by
  obtain ⟨events, hadvance, hrecorded⟩ := h state hs
  rw [hread] at hadvance hrecorded
  exact ⟨hrecorded, ⟨events, hadvance.recorded.symm⟩, hadvance.next⟩

/-- Unless a table repeats a key, the writer repeats what the reader goes through. -/
structure Repeats (read : CountingReader α) (write : α → List NodeId → List UInt8 × List NodeId) :
    Prop where
  safe : Safe read
  retraced : ∀ {state result state'}, read state = .ok result state' → state.Recorded →
    DistinctKeys state'.events →
      Retraced (write result state.table) state.toReadState state'.toReadState

namespace Repeats

theorem lift {read : Reader α} {print : α → List UInt8} (h : OnlyTakes read)
    (h' : Reader.Spells read print) :
    Repeats (Counting.lift read) fun result written => (print result, written) where
  safe := .lift h
  retraced hread _ _ := by
    obtain ⟨after, hafter, rfl⟩ := exists_of_lift_ok hread
    exact h'.retraced hafter

theorem byte : Repeats (Counting.lift Reader.byte) fun byte written => ([byte], written) :=
  lift .byte Reader.spells_byte

theorem word : Repeats (Counting.lift Reader.word) fun number written =>
    (Wire.word number, written) :=
  lift OnlyTakes.kept.word Reader.spells_word

theorem text : Repeats (Counting.lift Reader.text) fun string written =>
    (Wire.text string, written) :=
  lift OnlyTakes.kept.text Reader.spells_text

theorem ids : Repeats (Counting.lift Reader.ids) fun ids written =>
    (Wire.word ids.length ++ ids.flatMap fun id => bigEndian 8 id.toUInt64.toNat, written) :=
  lift OnlyTakes.kept.ids Reader.spells_ids

/-- The first step of a reader: what follows it only adds to the events, so the tables of the step
are among those of the whole. -/
theorem step {read : CountingReader α} {write : α → List NodeId → List UInt8 × List NodeId}
    (h : Repeats read write) {next : α → CountingReader β} {result : β}
    (hrun : (read >>= next) state = .ok result state') (hnext : ∀ first, Safe (next first))
    (hs : state.Recorded) (hkeys : DistinctKeys state'.events) :
    ∃ first middle, read state = .ok first middle ∧ next first middle = .ok result state' ∧
      middle.Recorded ∧ state.next ≤ middle.next ∧
      Retraced (write first state.table) state.toReadState middle.toReadState := by
  obtain ⟨first, middle, hread, hrest⟩ := Reader.exists_of_bind_ok hrun
  obtain ⟨hmiddle, -, hlater⟩ := h.safe.ok hread hs
  obtain ⟨-, hevents, -⟩ := (hnext first).ok hrest hmiddle
  exact ⟨first, middle, hread, hrest, hmiddle, hlater,
    h.retraced hread hs (hkeys.of_prefix hevents)⟩

/-- The last step of a reader that makes its result of what it read. -/
theorem last {read : CountingReader α} {write : α → List NodeId → List UInt8 × List NodeId}
    (h : Repeats read write) {make : α → β} {result : β}
    (hrun : (read >>= fun first => pure (make first)) state = .ok result state')
    (hs : state.Recorded) (hkeys : DistinctKeys state'.events) :
    ∃ first, result = make first ∧
      Retraced (write first state.table) state.toReadState state'.toReadState := by
  obtain ⟨first, middle, -, hpure, -, -, hfirst⟩ := h.step hrun (fun _ => .pure _) hs hkeys
  obtain ⟨rfl, rfl⟩ := EStateM.Result.ok.inj hpure
  exact ⟨first, rfl, hfirst⟩

end Repeats

/-! ### Tables and nodes -/

theorem idxOf?_of_nodup {table : List NodeId} {id : NodeId} {number : Nat} (hnodup : table.Nodup)
    (hid : table[number]? = some id) : table.idxOf? id = some number := by
  obtain ⟨hlt, rfl⟩ := List.getElem?_eq_some_iff.mp hid
  refine List.idxOf?_eq_some_iff.mpr ⟨hlt, rfl, fun earlier hearlier hsame => ?_⟩
  exact Nat.ne_of_lt hearlier ((hnodup.getElem_inj_iff).mp hsame)

theorem length_of_many {item : CountingReader α} {count : Nat} {results : List α}
    (h : many item count state = .ok results state') : results.length = count := by
  induction count generalizing state results with
  | zero =>
    obtain ⟨rfl, rfl⟩ := EStateM.Result.ok.inj h
    rfl
  | succ count ih =>
    obtain ⟨first, middle, -, hothers⟩ := Reader.exists_of_bind_ok h
    obtain ⟨rest, last, hrest, hresult⟩ := Reader.exists_of_bind_ok hothers
    obtain ⟨rfl, rfl⟩ := EStateM.Result.ok.inj hresult
    exact congrArg (· + 1) (ih hrest)

theorem Repeats.many {item : CountingReader α}
    {write : α → List NodeId → List UInt8 × List NodeId} (h : Repeats item write) (count : Nat) :
    Repeats (many item count) (writeEach write) where
  safe := h.safe.many count
  retraced {state results state'} hrun hs hkeys := by
    induction count generalizing state results with
    | zero =>
      obtain ⟨rfl, rfl⟩ := EStateM.Result.ok.inj hrun
      exact .refl _
    | succ count ih =>
      have hrest (first : α) := (h.safe.many count).bind fun rest => .pure (first :: rest)
      obtain ⟨first, middle, -, hothers, hmiddle, -, hhead⟩ := h.step hrun hrest hs hkeys
      obtain ⟨rest, last, hrest, hresult⟩ := Reader.exists_of_bind_ok hothers
      obtain ⟨rfl, rfl⟩ := EStateM.Result.ok.inj hresult
      have htail := ih hrest hmiddle
      rw [← hhead.table] at htail
      exact hhead.trans htail

namespace Repeats

/-- A number stands for the node that the writer knows under it. -/
theorem continues_reference {result : Collection} (hrun : reference state = .ok result state')
    (hs : state.Recorded) (hkeys : DistinctKeys state'.events) :
    Continues [Marker.reference.code] (.collection result) state.toReadState
      state'.toReadState := by
  obtain ⟨number, middle, -, hrun, -, -, hnumber⟩ := word.step hrun .resolve hs hkeys
  rw [resolve] at hrun
  cases hnode : middle.nodes[number]? with
  | none =>
    rw [hnode] at hrun
    cases hrun
  | some found =>
    rw [hnode] at hrun
    obtain ⟨rfl, rfl⟩ := EStateM.Result.ok.inj hrun
    have hknown : middle.table[number]? = some found.id := by
      rw [ReadState.table, List.getElem?_map, hnode, Option.map_some]
    rw [← hnumber.table] at hknown
    refine ⟨_, _, ?_, hnumber⟩
    rw [Value.write, Collection.write_of_idxOf? (idxOf?_of_nodup hs.sound.nodup hknown)]
    rfl

section Parts

variable {value : CountingReader Value} (h : Repeats value Value.write)
include h

theorem entry : Repeats (entry value) writeEntry where
  safe := h.safe.entry
  retraced hrun hs hkeys := by
    obtain ⟨key, middle, -, hothers, hmiddle, -, hkey⟩ :=
      text.step hrun (fun _ => h.safe.bind fun _ => .pure _) hs hkeys
    obtain ⟨item, rfl, hitem⟩ := h.last hothers hmiddle hkeys
    rw [← hkey.table] at hitem
    exact hkey.trans hitem

/-- The events have the keys of the table, so none of its entries replaced another. -/
theorem dict : Repeats (dict value) writeTable where
  safe := h.safe.dict
  retraced {state result state'} hrun hs hkeys := by
    have hnoted (entries : List (String × Value)) :=
      (Safe.note (entries.map Prod.fst)).bind fun _ => .pure (Dict.ofEntries entries)
    obtain ⟨count, afterCount, -, hothers, hcounted, -, hcount⟩ :=
      word.step hrun (fun count => (h.safe.entry.many count).bind hnoted) hs hkeys
    obtain ⟨entries, afterEntries, hread, hnote⟩ := Reader.exists_of_bind_ok hothers
    obtain ⟨rfl, rfl⟩ := EStateM.Result.ok.inj hnote
    have hdistinct : Dict.Distinct entries :=
      hkeys _ (List.mem_append_right _ (List.mem_singleton_self _))
    have hinside := (h.entry.many count).retraced hread hcounted
      (hkeys.of_prefix (List.prefix_append _ _))
    rw [← hcount.table] at hinside
    rw [Dict.ofEntries_of_distinct hdistinct, writeTable, length_of_many hread]
    exact hcount.trans hinside

theorem operand : Repeats (operand value) Collection.write where
  safe := h.safe.operand
  retraced hrun hs hkeys := by
    obtain ⟨item, middle, hread, hnode⟩ := Reader.exists_of_bind_ok hrun
    cases item with
    | collection operand =>
      obtain ⟨rfl, rfl⟩ := EStateM.Result.ok.inj hnode
      exact h.retraced hread hs hkeys
    | _ => cases hnode

/-- A node that was just finished is new to the writer as well. -/
theorem continues_node {kind : CollectionKind} {result : Collection}
    (hrun : node value kind state = .ok result state') (hs : state.Recorded)
    (hkeys : DistinctKeys state'.events) :
    Continues [Marker.collection.code, kind.code] (.collection result) state.toReadState
      state'.toReadState := by
  have hbelow (attributes : Dict Value) (ids : List Int64) (count : Nat) :=
    (h.safe.operand.many count).bind fun operands => .finish kind attributes operands ids
  have hcounted (attributes : Dict Value) (ids : List Int64) :=
    (Safe.lift OnlyTakes.kept.word).bind (hbelow attributes ids)
  have hlisted (attributes : Dict Value) :=
    (Safe.lift OnlyTakes.kept.ids).bind (hcounted attributes)
  obtain ⟨attributes, afterAttributes, -, hrun, hs₁, hle₁, habove⟩ :=
    h.dict.step hrun hlisted hs hkeys
  obtain ⟨ids, afterIds, -, hrun, hs₂, hle₂, hids⟩ :=
    Repeats.ids.step hrun (hcounted attributes) hs₁ hkeys
  obtain ⟨count, afterCount, -, hrun, hs₃, hle₃, hcount⟩ :=
    word.step hrun (hbelow attributes ids) hs₂ hkeys
  obtain ⟨operands, afterOperands, hoperands, hfinish, -, hle₄, hinside⟩ :=
    (h.operand.many count).step hrun (fun operands => .finish kind attributes operands ids) hs₃
      hkeys
  obtain ⟨rfl, rfl⟩ := EStateM.Result.ok.inj hfinish
  have hnew : afterOperands.next ∉ state.table := fun hold =>
    Nat.lt_irrefl _ ((hs.sound.fresh _ hold).trans_le
      (hle₁.trans (hle₂.trans (hle₃.trans hle₄))))
  -- Between the attributes and the operands no node is finished.
  have hbetween : (writeTable attributes state.table).2 = afterCount.table :=
    habove.table.trans (hids.table.trans hcount.table)
  have hall := habove.trans (hids.trans (hcount.trans hinside))
  refine ⟨_, afterOperands.table ++ [afterOperands.next], ?_, hall.input,
    (afterOperands.table_push rfl).symm⟩
  rw [Value.write, Collection.write_of_notMem hnew]
  dsimp only
  rw [hbetween, hinside.table, length_of_many hoperands]
  rfl

theorem continues_collection {result : Collection}
    (hrun : collection value state = .ok result state') (hs : state.Recorded)
    (hkeys : DistinctKeys state'.events) :
    Continues [Marker.collection.code] (.collection result) state.toReadState
      state'.toReadState := by
  obtain ⟨code, middle, -, hrun, hmiddle, -, hcode⟩ := byte.step hrun
    (fun code => by
      split
      · exact .throw _
      · exact h.safe.node _) hs hkeys
  cases hkind : CollectionKind.ofCode? code with
  | none =>
    rw [hkind] at hrun
    cases hrun
  | some kind =>
    rw [hkind] at hrun
    rw [CollectionKind.eq_code hkind] at hcode
    exact (h.continues_node hrun hmiddle hkeys).back hcode

/-- After the marker of a value the writer repeats what the reader goes through. -/
theorem continues_body {marker : Marker} {result : Value}
    (hrun : body value marker state = .ok result state') (hs : state.Recorded)
    (hkeys : DistinctKeys state'.events) :
    Continues [marker.code] result state.toReadState state'.toReadState := by
  cases marker with
  | list =>
    obtain ⟨count, middle, -, hrun, hmiddle, -, hcount⟩ :=
      word.step hrun (fun count => (h.safe.many count).bind fun _ => .pure _) hs hkeys
    obtain ⟨items, last, hitems, hresult⟩ := Reader.exists_of_bind_ok hrun
    obtain ⟨rfl, rfl⟩ := EStateM.Result.ok.inj hresult
    have hinside := (h.many count).retraced hitems hmiddle hkeys
    rw [← hcount.table] at hinside
    refine ⟨_, _, ?_, hcount.trans hinside⟩
    rw [Value.write, writeItems_eq, length_of_many hitems]
    rfl
  | dict =>
    obtain ⟨entries, rfl, hentries⟩ := h.dict.last hrun hs hkeys
    refine ⟨_, _, ?_, hentries⟩
    rw [Value.write, writeEntries_eq]
    rfl
  | collection =>
    obtain ⟨node, middle, hnode, hresult⟩ := Reader.exists_of_bind_ok hrun
    obtain ⟨rfl, rfl⟩ := EStateM.Result.ok.inj hresult
    exact h.continues_collection hnode hs hkeys
  | reference =>
    obtain ⟨node, middle, hnode, hresult⟩ := Reader.exists_of_bind_ok hrun
    obtain ⟨rfl, rfl⟩ := EStateM.Result.ok.inj hresult
    exact continues_reference hnode hs hkeys
  | _ =>
    rw [body_scalar value 0 (by decide)] at hrun
    obtain ⟨after, hafter, rfl⟩ := exists_of_lift_ok hrun
    exact continues_scalar hafter (by decide)

end Parts

/-! ### Values -/

/-- The writer repeats every value that is read, unless a table in it repeats a key. -/
theorem value (turns : Nat) : Repeats (Counting.value turns) Value.write := by
  refine ⟨.value turns, ?_⟩
  induction turns with
  | zero =>
    intro state result state' hrun
    cases hrun
  | succ turns ih =>
    intro state result state' hrun hs hkeys
    obtain ⟨⟨input, nodes, next⟩, depth, past⟩ := state
    cases input with
    | nil => cases hrun
    | cons first rest =>
      obtain ⟨hdepth, after, hread, rfl⟩ := exists_of_within_ok hrun
      replace hkeys : DistinctKeys after.events := hkeys.of_prefix (List.prefix_append _ _)
      obtain ⟨code, middle, -, hrest, hmiddle, -, hcode⟩ := byte.step hread
        (fun code => by
          split
          · exact .throw _
          · exact (Safe.value turns).body _) (hs.note (by simp) hdepth _) hkeys
      cases hmarker : Marker.ofCode? code with
      | none =>
        rw [hmarker] at hrest
        cases hrest
      | some marker =>
        rw [hmarker] at hrest
        rw [Marker.eq_code hmarker] at hcode
        have hturns : Repeats (Counting.value turns) Value.write := ⟨.value turns, ih⟩
        have hwhole : Continues [] result _ _ :=
          (hturns.continues_body hrest hmiddle hkeys).back hcode
        exact hwhole.retraced

/-- So it repeats a whole message. -/
theorem values (turns : Nat) : Repeats (Counting.values turns) writeItems := by
  induction turns with
  | zero =>
    refine ⟨.values 0, fun {state result state'} hrun _ _ => ?_⟩
    obtain ⟨⟨input, nodes, next⟩, depth, past⟩ := state
    cases input with
    | nil =>
      obtain ⟨rfl, rfl⟩ := EStateM.Result.ok.inj hrun
      exact .refl _
    | cons first rest => cases hrun
  | succ turns ih =>
    refine ⟨.values _, fun {state result state'} hrun hs hkeys => ?_⟩
    obtain ⟨⟨input, nodes, next⟩, depth, past⟩ := state
    cases input with
    | nil =>
      obtain ⟨rfl, rfl⟩ := EStateM.Result.ok.inj hrun
      exact .refl _
    | cons byte rest =>
      obtain ⟨first, middle, -, hrest, hmiddle, -, hfirst⟩ :=
        (value _).step hrun (fun _ => ih.safe.bind fun _ => .pure _) hs hkeys
      obtain ⟨others, rfl, hothers⟩ := ih.last hrest hmiddle hkeys
      rw [← hfirst.table] at hothers
      exact hfirst.trans hothers

end Repeats

/-- Values are read to the end of the input. -/
theorem input_of_values_ok {turns : Nat} {results : List Value}
    (hrun : values turns state = .ok results state') : state'.input = [] := by
  induction turns generalizing state results with
  | zero =>
    obtain ⟨⟨input, nodes, next⟩, depth, past⟩ := state
    cases input with
    | nil =>
      obtain ⟨rfl, rfl⟩ := EStateM.Result.ok.inj hrun
      rfl
    | cons first rest => cases hrun
  | succ turns ih =>
    obtain ⟨⟨input, nodes, next⟩, depth, past⟩ := state
    cases input with
    | nil =>
      obtain ⟨rfl, rfl⟩ := EStateM.Result.ok.inj hrun
      rfl
    | cons byte rest =>
      have hitems : (do
          let first ← value (maxDepth + 1)
          let rest ← values turns
          return first :: rest : CountingReader (List Value))
          ⟨⟨byte :: rest, nodes, next⟩, depth, past⟩ = .ok results state' := hrun
      obtain ⟨first, middle, -, hrest⟩ := Reader.exists_of_bind_ok hitems
      obtain ⟨others, last, hothers, hresult⟩ := Reader.exists_of_bind_ok hrest
      obtain ⟨rfl, rfl⟩ := EStateM.Result.ok.inj hresult
      exact ih hothers

end Counting

end Wire

end MediaCatalog
