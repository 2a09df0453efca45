import MediaCatalog.Proofs.Wire.Calls
import MediaCatalog.Proofs.Wire.Recording

/-!
Safety of decoding. Whatever bytes a decoder is given, and whatever it was given before, it comes to
a value or to an error with the counter of levels where it was. On the way it never opens more
values than there are levels, nor more than it takes bytes, it only adds to the nodes that are
known, and a number is taken for the one node that was finished under it.
-/

namespace MediaCatalog

namespace Wire

/-! ### Calls -/

open Counting

namespace CountingState

/-- A call of a decoder that counts. A new message starts with new events. -/
def perform (state : CountingState) : DecoderCall → CountingState
  | .decode input => final (value (maxDepth + 1) { state with input })
  | .decodeAll input => final (values input.length { state with input })
  | .reset => { state with nodes := [], depth := 0, events := [] }

variable {state : CountingState}

/-- A decoder that is called comes to the state that the counting one comes to. -/
theorem perform_eq (hdepth : state.depth = 0) (call : DecoderCall) :
    ∃ answer, state.decoder.perform call state.next =
      ((answer, (state.perform call).decoder), (state.perform call).next) := by
  cases call with
  | decode input =>
      refine ⟨.value (answered (value (maxDepth + 1) { state with input })
        fun value after => (value, after.input)).1.1, ?_⟩
      simp only [Decoder.perform, bind, StateT.bind, decode_eq_answered hdepth, perform]
      cases value (maxDepth + 1) { state with input } with
      | _ => rfl
  | decodeAll input =>
      refine ⟨.values (answered (values input.length { state with input })
        fun values _ => values).1.1, ?_⟩
      simp only [Decoder.perform, bind, StateT.bind, decodeAll_eq_answered hdepth, perform]
      cases values input.length { state with input } with
      | _ => rfl
  | reset => exact ⟨.forgotten, rfl⟩

/-- Each call leaves a state of which the events tell the nodes, on the level of the one before. -/
theorem Recorded.perform (h : state.Recorded) (hdepth : state.depth = 0) (call : DecoderCall) :
    (state.perform call).Recorded ∧ (state.perform call).depth = 0 := by
  cases call with
  | decode input =>
      obtain ⟨events, hadvance, hafter⟩ := Safe.value (maxDepth + 1) _ (h.with_input input)
      exact ⟨hafter, hadvance.depth.trans hdepth⟩
  | decodeAll input =>
      obtain ⟨events, hadvance, hafter⟩ := Safe.values input.length _ (h.with_input input)
      exact ⟨hafter, hadvance.depth.trans hdepth⟩
  | reset => exact ⟨(recorded_initial state.next).with_input state.input, rfl⟩

/-- So does each run of calls. -/
theorem Recorded.run (h : state.Recorded) (hdepth : state.depth = 0) (calls : List DecoderCall) :
    let after := calls.foldl CountingState.perform state
    after.Recorded ∧ after.depth = 0 ∧
      ∃ answers, state.decoder.run calls state.next = ((answers, after.decoder), after.next) := by
  induction calls generalizing state with
  | nil => exact ⟨h, hdepth, [], rfl⟩
  | cons call rest ih =>
      obtain ⟨hnext, hdepth'⟩ := h.perform hdepth call
      obtain ⟨answer, hcall⟩ := perform_eq hdepth call
      obtain ⟨hlast, hdepth'', answers, hrest⟩ := ih hnext hdepth'
      refine ⟨hlast, hdepth'', answer :: answers, ?_⟩
      simp only [Decoder.run, bind, StateT.bind, hcall, hrest]
      rfl

end CountingState

end Wire

open Wire Counting

/-- Decoding is safe. After any calls of a decoder, each of which may have failed, the counter is at
zero. From there any input is read to a value or to an error with the counter back at zero, with
what is left being the end of the input, and with nodes only added. At no time are more values open
than there are levels, nor are more let in than bytes were taken. A value took at least one byte. A
number that was taken for a node had been given to this node, and to no other one, and no two nodes
have the same identity. So reading all values of an input comes to an end: it is the first value and
all values of what that leaves. -/
theorem Decoder.decode_safe (calls : List DecoderCall) (start : NodeId) (input : List UInt8) :
    let before := calls.foldl CountingState.perform (.initial start)
    let reading := value (maxDepth + 1) { before with input }
    ((∃ answers, Decoder.run {} calls start = ((answers, before.decoder), before.next)) ∧
      before.depth = 0 ∧
      before.decoder.decode input before.next =
        answered reading fun value after => (value, after.input)) ∧
    (∃ events, Advance { before with input } (final reading) events) ∧
    (∀ value after, reading = .ok value after →
      ∃ front, front ≠ [] ∧ input = front ++ after.input) ∧
    ((∀ earlier number node, earlier ++ [.resolved number node] <+: (final reading).events →
      .finished number node ∈ earlier ∧
        ∀ other, .finished number other ∈ (final reading).events → other = node) ∧
      ((final reading).nodes.map Collection.id).Nodup) ∧
    ∀ (decoder : Decoder) (input : List UInt8), decoder.decodeAll input =
      if input = [] then return (.ok [], decoder)
      else do
        match ← decoder.decode input with
        | (.error cause, decoder) => return (.error cause, decoder)
        | (.ok (value, rest), decoder) =>
          match ← decoder.decodeAll rest with
          | (.error cause, decoder) => return (.error cause, decoder)
          | (.ok values, decoder) => return (.ok (value :: values), decoder) := by
  intro before reading
  obtain ⟨hbefore, hdepth, hrun⟩ :=
    (CountingState.recorded_initial start).run rfl calls
  have hdecode : before.decoder.decode input before.next =
      answered reading fun value after => (value, after.input) := decode_eq_answered hdepth input
  obtain ⟨events, hadvance, hafter⟩ := Safe.value (maxDepth + 1) _ (hbefore.with_input input)
  refine ⟨⟨hrun, hdepth, hdecode⟩, ⟨events, hadvance⟩, fun value after hreading => ?_,
    ⟨fun earlier number node hbegins => ?_, hafter.sound.nodup⟩, decodeAll_eq⟩
  · rw [hreading] at hdecode
    exact takes_of_decode (congrArg (·.1.1) hdecode)
  · have hfinished := hafter.resolved earlier number node hbegins
    refine ⟨hfinished, fun other hother => ?_⟩
    have hnode := (hafter.numbered number node).mp
      (hbegins.subset (List.mem_append_left _ hfinished))
    exact Option.some.inj (((hafter.numbered number other).mp hother).symm.trans hnode)

end MediaCatalog
