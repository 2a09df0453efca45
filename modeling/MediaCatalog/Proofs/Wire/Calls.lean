import MediaCatalog.Proofs.Wire.Truncation

/-!
Calls of one decoder. A decoder is asked for one value or for all values of an input, and told to
forget the message before the next one. A value that is read takes at least one byte, so reading all
values of an input comes to an end: it reads on until nothing is left or a value fails.
-/

namespace MediaCatalog

open Wire

/-- What a decoder is asked for. -/
inductive DecoderCall where
  | decode (input : List UInt8)
  | decodeAll (input : List UInt8)
  | reset

/-- What a decoder answers. -/
inductive DecoderAnswer where
  /-- A value and what is left of the input. -/
  | value (outcome : Except WireError (Value × List UInt8))
  | values (outcome : Except WireError (List Value))
  | forgotten

namespace Decoder

def perform (decoder : Decoder) : DecoderCall → Build (DecoderAnswer × Decoder)
  | .decode input => do
    let (outcome, decoder) ← decoder.decode input
    return (.value outcome, decoder)
  | .decodeAll input => do
    let (outcome, decoder) ← decoder.decodeAll input
    return (.values outcome, decoder)
  | .reset => return (.forgotten, decoder.reset)

/-- One call after another: the answers, and the decoder that is left. -/
def run (decoder : Decoder) : List DecoderCall → Build (List DecoderAnswer × Decoder)
  | [] => return ([], decoder)
  | call :: rest => do
    let (answer, decoder) ← decoder.perform call
    let (answers, decoder) ← decoder.run rest
    return (answer :: answers, decoder)

/-! ### All values of an input -/

/-- A value that is read took some bytes from the front. -/
theorem takes_of_decode {decoder : Decoder} {input rest : List UInt8} {next : NodeId}
    {value : Value} (h : (decoder.decode input next).1.1 = .ok (value, rest)) :
    ∃ front, front ≠ [] ∧ input = front ++ rest := by
  rw [decode] at h
  cases hread : Reader.value maxDepth ⟨input, decoder.nodes, next⟩ with
  | error cause state =>
      rw [hread] at h
      cases h
  | ok result state =>
      rw [hread] at h
      obtain ⟨rfl, rfl⟩ := Prod.mk.inj (Except.ok.inj h)
      obtain ⟨front, hfront, htakes, -⟩ := noticesEnd_value maxDepth _ _ _ _ _ hread
      refine ⟨front, ?_, hfront⟩
      rintro rfl
      cases htakes []

theorem length_lt_of_decode {decoder : Decoder} {input rest : List UInt8} {next : NodeId}
    {value : Value} (h : (decoder.decode input next).1.1 = .ok (value, rest)) :
    rest.length < input.length := by
  obtain ⟨front, hfront, rfl⟩ := takes_of_decode h
  have hpos := List.length_pos_iff.mpr hfront
  rw [List.length_append]
  omega

/-- There are turns enough, however many more there are. -/
theorem decodeUpTo_eq_decodeAll (decoder : Decoder) {fuel : Nat} {input : List UInt8}
    (hfuel : input.length ≤ fuel) : decoder.decodeUpTo fuel input = decoder.decodeAll input := by
  suffices hsame : ∀ (fuel fuel' : Nat) (decoder : Decoder) (input : List UInt8),
      input.length ≤ fuel → input.length ≤ fuel' →
      decoder.decodeUpTo fuel input = decoder.decodeUpTo fuel' input from
    hsame _ _ decoder input hfuel (Nat.le_refl _)
  intro fuel
  induction fuel with
  | zero =>
      intro fuel' decoder input hfuel _
      obtain rfl := List.length_eq_zero_iff.mp (Nat.le_zero.mp hfuel)
      cases fuel' <;> rfl
  | succ fuel ih =>
      intro fuel' decoder input hfuel hfuel'
      cases input with
      | nil => cases fuel' <;> rfl
      | cons byte tail =>
          have hpos : 0 < fuel' := Nat.lt_of_lt_of_le (Nat.succ_pos _) hfuel'
          obtain ⟨fuel', rfl⟩ := Nat.exists_eq_add_of_lt hpos
          rw [Nat.zero_add] at hfuel' ⊢
          funext next
          simp only [decodeUpTo, bind, StateT.bind]
          rcases hdecode : decoder.decode (byte :: tail) next with ⟨⟨outcome, after⟩, next'⟩
          cases outcome with
          | error cause => rfl
          | ok read =>
              obtain ⟨value, rest⟩ := read
              have hlength := length_lt_of_decode (congrArg (·.1.1) hdecode)
              rw [List.length_cons] at hfuel hfuel' hlength
              simp only [ih fuel' after rest (by omega) (by omega)]

/-- All values of an input are the first one and all values of what it leaves. -/
theorem decodeAll_eq (decoder : Decoder) (input : List UInt8) :
    decoder.decodeAll input =
      if input = [] then return (.ok [], decoder)
      else do
        match ← decoder.decode input with
        | (.error cause, decoder) => return (.error cause, decoder)
        | (.ok (value, rest), decoder) =>
          match ← decoder.decodeAll rest with
          | (.error cause, decoder) => return (.error cause, decoder)
          | (.ok values, decoder) => return (.ok (value :: values), decoder) := by
  cases input with
  | nil => rfl
  | cons byte tail =>
      rw [if_neg (List.cons_ne_nil byte tail)]
      rw [← decodeUpTo_eq_decodeAll decoder (Nat.le_refl (byte :: tail).length)]
      funext next
      simp only [List.length_cons, decodeUpTo, bind, StateT.bind]
      rcases hdecode : decoder.decode (byte :: tail) next with ⟨⟨outcome, after⟩, next'⟩
      cases outcome with
      | error cause => rfl
      | ok read =>
          obtain ⟨value, rest⟩ := read
          have hlength := length_lt_of_decode (congrArg (·.1.1) hdecode)
          rw [List.length_cons] at hlength
          have hothers := decodeUpTo_eq_decodeAll after (Nat.le_of_lt_succ hlength)
          dsimp only
          rewrite [hothers]
          rfl

end Decoder

end MediaCatalog
