import MediaCatalog.Proofs.Value.Entries
import MediaCatalog.Proofs.Wire.Calls

/-!
The supply of identities. A reader takes the next unused identity for each node that it finishes and
looks at identities nowhere else. So a decoder that starts from a later supply, its nodes moved up
as far, comes to the same answers moved up as far, failures included. What a fresh decoder answers
depends on what was read before by the start of the supply alone.
-/

namespace MediaCatalog

open Wire

namespace Wire

variable {α β γ δ : Type} {offset : Nat}

/-- The same state with all identities moved up. -/
def ReadState.shifted (offset : Nat) (state : ReadState) : ReadState where
  input := state.input
  nodes := renamedOperands (· + offset) state.nodes
  next := state.next + offset

/-- What a reader comes to, with the result changed and all identities of the state moved up. -/
def shiftedOutcome (offset : Nat) (change : α → β) :
    EStateM.Result WireError ReadState α → EStateM.Result WireError ReadState β
  | .ok result state => .ok (change result) (state.shifted offset)
  | .error cause state => .error cause (state.shifted offset)

/-- On states that are moved up the second reader comes to what the first one comes to, moved up. -/
def Shifts (offset : Nat) (change : α → β) (read : Reader α) (read' : Reader β) : Prop :=
  ∀ state : ReadState, read' (state.shifted offset) = shiftedOutcome offset change (read state)

namespace Shifts

theorem pure (change : α → β) (result : α) :
    Shifts offset change (Pure.pure result) (Pure.pure (change result)) :=
  fun _ => rfl

theorem throw (change : α → β) (cause : WireError) :
    Shifts offset change (MonadExcept.throw cause) (MonadExcept.throw cause) :=
  fun _ => rfl

theorem bind {change : α → β} {change' : γ → δ} {read : Reader α} {read' : Reader β}
    {next : α → Reader γ} {next' : β → Reader δ} (h : Shifts offset change read read')
    (h' : ∀ result, Shifts offset change' (next result) (next' (change result))) :
    Shifts offset change' (read >>= next) (read' >>= next') := by
  intro state
  have hread' := h state
  cases hread : read state with
  | error cause after =>
      rw [hread] at hread'
      rw [Reader.bind_error hread, Reader.bind_error hread']
      rfl
  | ok result after =>
      rw [hread] at hread'
      rw [Reader.bind_ok hread, Reader.bind_ok hread']
      exact h' result after

/-! ### Bytes -/

theorem bytes (count : Nat) : Shifts offset id (Reader.bytes count) (Reader.bytes count) := by
  intro state
  simp only [Reader.bytes, ReadState.shifted]
  cases splitAt? count state.input with
  | _ => rfl

theorem byte : Shifts offset id Reader.byte Reader.byte := by
  rintro ⟨input, nodes, next⟩
  cases input with
  | _ => rfl

theorem kept : Reader.Kept fun read => Shifts offset id read read :=
  ⟨pure id, throw id, bind, bytes⟩

/-! ### Nodes -/

theorem finish (kind : CollectionKind) (attributes : Dict Value) (operands : List Collection)
    (ids : List Int64) :
    Shifts offset (Collection.renamed (· + offset))
      (Reader.finish kind attributes operands ids)
      (Reader.finish kind (renamedEntries (· + offset) attributes)
        (renamedOperands (· + offset) operands) ids) := by
  intro state
  simp only [Reader.finish, shiftedOutcome, ReadState.shifted, Collection.renamed,
    renamedOperands_eq_map, List.map_append, List.map_cons, List.map_nil,
    Nat.add_right_comm state.next offset 1]

theorem reference :
    Shifts offset (Collection.renamed (· + offset)) Reader.reference Reader.reference := by
  refine kept.word.bind fun number => ?_
  intro state
  rw [Reader.bind_get, Reader.bind_get]
  have hnode : (state.shifted offset).nodes[id number]? =
      state.nodes[number]?.map (Collection.renamed (· + offset)) := by
    rw [ReadState.shifted, renamedOperands_eq_map, List.getElem?_map, id]
  rw [hnode]
  cases state.nodes[number]? with
  | _ => rfl

/-! ### Values -/

theorem many {change : α → β} {item : Reader α} {item' : Reader β}
    (h : Shifts offset change item item') :
    ∀ count, Shifts offset (List.map change) (Reader.many item count) (Reader.many item' count)
  | 0 => .pure (List.map change) []
  | count + 1 => h.bind fun _ => (many h count).bind fun _ => .pure (List.map change) _

section Parts

variable {value : Reader Value} (h : Shifts offset (Value.renamed (· + offset)) value value)
include h

theorem entry :
    Shifts offset (fun entry => (entry.1, entry.2.renamed (· + offset)))
      (Reader.entry value) (Reader.entry value) :=
  kept.text.bind fun _ => h.bind fun _ => .pure _ (_, _)

theorem dict : Shifts offset (renamedEntries (· + offset)) (Reader.dict value)
    (Reader.dict value) := by
  refine kept.word.bind fun count => (h.entry.many count).bind fun entries => ?_
  rw [Dict.ofEntries_map, ← renamedEntries_eq_map]
  exact .pure _ _

theorem operand : Shifts offset (Collection.renamed (· + offset)) (Reader.operand value)
    (Reader.operand value) := by
  refine h.bind fun result => ?_
  cases result with
  | collection node => exact .pure (Collection.renamed (· + offset)) node
  | _ => exact .throw _ _

theorem collection : Shifts offset (Collection.renamed (· + offset)) (Reader.collection value)
    (Reader.collection value) := by
  refine byte.bind fun code => ?_
  rw [id]
  cases CollectionKind.ofCode? code with
  | none => exact .throw _ _
  | some kind =>
      refine h.dict.bind fun attributes => kept.ids.bind fun ids => kept.word.bind fun count =>
        (h.operand.many count).bind fun operands => ?_
      rw [← renamedOperands_eq_map]
      exact .finish kind attributes operands ids

end Parts

theorem body {depth : Nat}
    (h : Shifts offset (Value.renamed (· + offset)) (Reader.value depth) (Reader.value depth))
    (marker : Marker) :
    Shifts offset (Value.renamed (· + offset)) (Reader.body depth marker)
      (Reader.body depth marker) := by
  cases marker with
  | none => exact .pure _ Value.none
  | int => exact (bytes 8).bind fun _ => .pure _ (Value.int _)
  | float => exact (bytes 8).bind fun _ => .pure _ (Value.float _)
  | string => exact kept.text.bind fun _ => .pure _ (Value.string _)
  | binary => exact kept.word.bind fun count => (bytes count).bind fun _ => .pure _ (Value.binary _)
  | error => exact kept.text.bind fun _ => .pure _ (Value.error _)
  | dict => exact h.dict.bind fun entries => .pure _ (Value.dict entries)
  | collection => exact h.collection.bind fun node => .pure _ (Value.collection node)
  | reference => exact reference.bind fun node => .pure _ (Value.collection node)
  | list =>
      refine kept.word.bind fun count => (h.many count).bind fun items => ?_
      rw [← renamedItems_eq_map]
      exact .pure _ (Value.list items)

/-- A reader of values does not see where the identities start. -/
theorem value (offset depth : Nat) :
    Shifts offset (Value.renamed (· + offset)) (Reader.value depth) (Reader.value depth) := by
  induction depth with
  | zero =>
      rintro ⟨input, nodes, next⟩
      cases input with
      | _ => rfl
  | succ depth ih =>
      rw [Reader.value_succ]
      refine byte.bind fun code => ?_
      rw [id]
      cases Marker.ofCode? code with
      | none => exact .throw _ _
      | some marker => exact ih.body marker

end Shifts

/-! ### Builders -/

/-- From a supply that is moved up the second builder comes to the changed result and leaves the
supply moved up. -/
def BuildShifts (offset : Nat) (change : α → β) (build : Build α) (build' : Build β) : Prop :=
  ∀ next : NodeId, build' (next + offset) = (change (build next).1, (build next).2 + offset)

namespace BuildShifts

theorem pure (change : α → β) (result : α) :
    BuildShifts offset change (Pure.pure result) (Pure.pure (change result)) :=
  fun _ => rfl

theorem bind {change : α → β} {change' : γ → δ} {build : Build α} {build' : Build β}
    {next : α → Build γ} {next' : β → Build δ} (h : BuildShifts offset change build build')
    (h' : ∀ result, BuildShifts offset change' (next result) (next' (change result))) :
    BuildShifts offset change' (build >>= next) (build' >>= next') := by
  intro start
  show next' (build' (start + offset)).1 (build' (start + offset)).2 = _
  rw [h start]
  exact h' (build start).1 (build start).2

end BuildShifts

end Wire

/-- The same answer with every identity replaced. -/
def DecoderAnswer.renamed (rename : NodeId → NodeId) : DecoderAnswer → DecoderAnswer
  | .value outcome => .value (outcome.map (Prod.map (Value.renamed rename) id))
  | .values outcome => .values (outcome.map (List.map (Value.renamed rename)))
  | .forgotten => .forgotten

namespace Decoder

variable (offset : Nat)

/-- The same decoder with the identities of its nodes moved up. -/
def shifted (offset : Nat) (decoder : Decoder) : Decoder where
  nodes := renamedOperands (· + offset) decoder.nodes

theorem decode_shifted (decoder : Decoder) (input : List UInt8) :
    BuildShifts offset
      (Prod.map (Except.map (Prod.map (Value.renamed (· + offset)) id)) (shifted offset))
      (decoder.decode input) ((decoder.shifted offset).decode input) := by
  intro next
  have hread := Shifts.value offset maxDepth ⟨input, decoder.nodes, next⟩
  simp only [ReadState.shifted] at hread
  simp only [decode, shifted, hread]
  cases Reader.value maxDepth ⟨input, decoder.nodes, next⟩ with
  | _ => rfl

theorem decodeUpTo_shifted (decoder : Decoder) (turns : Nat) (input : List UInt8) :
    BuildShifts offset
      (Prod.map (Except.map (List.map (Value.renamed (· + offset)))) (shifted offset))
      (decoder.decodeUpTo turns input) ((decoder.shifted offset).decodeUpTo turns input) := by
  induction turns generalizing decoder input with
  | zero =>
      cases input with
      | _ => exact .pure _ _
  | succ turns ih =>
      cases input with
      | nil => exact .pure _ _
      | cons byte tail =>
          refine (decode_shifted offset decoder (byte :: tail)).bind fun (outcome, after) => ?_
          cases outcome with
          | error cause => exact .pure _ _
          | ok read =>
              obtain ⟨value, rest⟩ := read
              refine (ih after rest).bind fun (others, last) => ?_
              cases others with
              | _ => exact .pure _ _

theorem perform_shifted (decoder : Decoder) (call : DecoderCall) :
    BuildShifts offset (Prod.map (DecoderAnswer.renamed (· + offset)) (shifted offset))
      (decoder.perform call) ((decoder.shifted offset).perform call) := by
  cases call with
  | decode input => exact (decode_shifted offset decoder input).bind fun _ => .pure _ _
  | decodeAll input =>
      exact (decodeUpTo_shifted offset decoder input.length input).bind fun _ => .pure _ _
  | reset => exact .pure _ _

theorem run_shifted (decoder : Decoder) (calls : List DecoderCall) :
    BuildShifts offset (Prod.map (List.map (DecoderAnswer.renamed (· + offset))) (shifted offset))
      (decoder.run calls) ((decoder.shifted offset).run calls) := by
  induction calls generalizing decoder with
  | nil => exact .pure _ _
  | cons call rest ih =>
      exact (perform_shifted offset decoder call).bind fun (_, after) =>
        (ih after).bind fun _ => .pure _ _

/-- A fresh decoder answers alike from any supply, up to where the identities start. -/
theorem run_fresh (calls : List DecoderCall) (next : NodeId) :
    (run {} calls next).1.1 = (run {} calls 0).1.1.map (DecoderAnswer.renamed (· + next)) := by
  have hshifted := run_shifted next {} calls 0
  rw [Nat.zero_add] at hshifted
  exact congrArg (·.1.1) hshifted

end Decoder

end MediaCatalog
