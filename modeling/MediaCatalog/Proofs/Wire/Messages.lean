import MediaCatalog.Proofs.Wire.Canonical
import MediaCatalog.Proofs.Wire.Safety
import MediaCatalog.Proofs.Wire.Supply

/-!
Messages apart from each other. An encoder and a decoder are used for one message after another, and
both keep a table of nodes. What the encoder returns at the end of a message depends on the values
of this message alone; what the decoder answers after it was told to forget depends on nothing that
it was given before, failures included, and has no node in common with it.
-/

namespace MediaCatalog

open Wire

/-! ### Encoders -/

/-- What an encoder is asked for. -/
inductive EncoderCall where
  | encode (value : Value)
  | encodeAll (values : List Value)
  | finish

/-- The values that are encoded between one finish and the next, for every finish. The pending
values were encoded before the first call. -/
def batches (pending : List Value) : List EncoderCall → List (List Value)
  | [] => []
  | .encode value :: rest => batches (pending ++ [value]) rest
  | .encodeAll values :: rest => batches (pending ++ values) rest
  | .finish :: rest => pending :: batches [] rest

namespace Encoder

/-- One call after another: what each finish returns. -/
def run (encoder : Encoder) : List EncoderCall → List (List UInt8)
  | [] => []
  | .encode value :: rest => (encoder.encode value).run rest
  | .encodeAll values :: rest => (encoder.encodeAll values).run rest
  | .finish :: rest => encoder.finish.1 :: encoder.finish.2.run rest

/-- What a fresh encoder returns for these values. -/
def message (values : List Value) : List UInt8 := (({} : Encoder).encodeAll values).finish.1

theorem encodeAll_append (encoder : Encoder) (values others : List Value) :
    encoder.encodeAll (values ++ others) = (encoder.encodeAll values).encodeAll others :=
  List.foldl_append

/-- Values are encoded one after another. -/
theorem encodeAll_eq_writeItems (encoder : Encoder) (values : List Value) :
    encoder.encodeAll values =
      { output := encoder.output ++ (writeItems values encoder.written).1
        written := (writeItems values encoder.written).2 } := by
  induction values generalizing encoder with
  | nil => simp [encodeAll, writeItems]
  | cons value rest ih =>
      show (encoder.encode value).encodeAll rest = _
      simp only [ih, encode, writeItems, List.append_assoc]

theorem message_eq_encodeAll (values : List Value) :
    message values = MediaCatalog.encodeAll values := by
  rw [message, encodeAll_eq_writeItems]
  rfl

/-- Each finish returns the message of the values since the one before. -/
theorem run_eq_messages (pending : List Value) (calls : List EncoderCall) :
    (({} : Encoder).encodeAll pending).run calls = (batches pending calls).map message := by
  induction calls generalizing pending with
  | nil => rfl
  | cons call rest ih =>
      cases call with
      | encode value =>
          rw [batches, ← ih, encodeAll_append]
          rfl
      | encodeAll values => rw [batches, ← ih, encodeAll_append, run]
      | finish => exact congrArg (message pending :: ·) (ih [])

end Encoder

/-! ### Decoders -/

/-- The values of an answer. -/
def DecoderAnswer.shown : DecoderAnswer → List Value
  | .value (.ok (item, _)) => [item]
  | .values (.ok items) => items
  | .value (.error _) | .values (.error _) | .forgotten => []

theorem DecoderAnswer.identities_renamed (rename : NodeId → NodeId) (answer : DecoderAnswer) :
    identities (answer.renamed rename).shown = (identities answer.shown).map rename := by
  cases answer with
  | value outcome =>
      cases outcome with
      | error cause => rfl
      | ok read => exact MediaCatalog.identities_renamed rename [read.1]
  | values outcome =>
      cases outcome with
      | error cause => rfl
      | ok items => exact MediaCatalog.identities_renamed rename items
  | forgotten => rfl

/-- Answers that start where the supply is have no older identities. -/
theorem DecoderAnswer.le_of_mem_identities {next : NodeId} {answer : DecoderAnswer} {id : NodeId}
    (h : id ∈ identities (answer.renamed (· + next)).shown) : next ≤ id := by
  rw [DecoderAnswer.identities_renamed] at h
  obtain ⟨base, -, rfl⟩ := List.mem_map.mp h
  exact Nat.le_add_left next base

/-- All nodes that a decoder knows after any calls were drawn from the supply. -/
theorem Decoder.lt_of_mem_run (calls : List DecoderCall) (start : NodeId) {node : Collection}
    (h : node ∈ (Decoder.run {} calls start).1.2.nodes) :
    node.id < (Decoder.run {} calls start).2 := by
  obtain ⟨hrecorded, -, answers, hrun⟩ :=
    (CountingState.recorded_initial start).run rfl calls
  have hstart : Decoder.run {} calls start = _ := hrun
  rw [hstart] at h ⊢
  exact hrecorded.sound.fresh _ (List.mem_map_of_mem h)

/-- Messages do not influence each other. Each finish of an encoder returns what a fresh encoder
returns for the values since the finish before, whatever nodes they share with earlier ones: copies
that share nothing with them give the same bytes. Once a decoder is told to forget, it answers any
calls as a fresh decoder does, failures included, up to where the new identities start. No node that
it knew before is in the values of these answers. -/
theorem messages_apart :
    (∀ calls : List EncoderCall,
      ({} : Encoder).run calls = (batches [] calls).map Encoder.message) ∧
    (∀ values copies : List Value, CopyOf values copies →
      Encoder.message copies = Encoder.message values) ∧
    ∀ (calls later : List DecoderCall) (start fresh : NodeId),
      let decoder := (Decoder.run {} calls start).1.2
      let next := (Decoder.run {} calls start).2
      let answers := (decoder.reset.run later next).1.1
      (∃ base : List DecoderAnswer,
        answers = base.map (DecoderAnswer.renamed (· + next)) ∧
        (Decoder.run {} later fresh).1.1 = base.map (DecoderAnswer.renamed (· + fresh))) ∧
      ∀ node ∈ decoder.nodes, ∀ answer ∈ answers, node.id ∉ identities answer.shown := by
  refine ⟨fun calls => Encoder.run_eq_messages [] calls, fun values copies hcopy => ?_,
    fun calls later start fresh => ?_⟩
  · rw [Encoder.message_eq_encodeAll, Encoder.message_eq_encodeAll, hcopy.encodeAll_eq]
  · intro decoder next answers
    have hanswers : answers = (Decoder.run {} later 0).1.1.map
        (DecoderAnswer.renamed (· + next)) := Decoder.run_fresh later next
    refine ⟨⟨_, hanswers, Decoder.run_fresh later fresh⟩, fun node hnode answer hanswer hid => ?_⟩
    rw [hanswers] at hanswer
    obtain ⟨base, -, rfl⟩ := List.mem_map.mp hanswer
    -- The old nodes are below the supply, the new ones are not.
    exact Nat.not_lt.mpr (DecoderAnswer.le_of_mem_identities hid)
      (Decoder.lt_of_mem_run calls start hnode)

end MediaCatalog
