import MediaCatalog.Proofs.Wire.RoundTrip
import MediaCatalog.Wire.Message

/-!
The round trip of frames. The header of a frame has a fixed length and comes back as it is; the
values after it come back as copies. What nests too deep fails as a whole, but the header of a
message can still be read.
-/

namespace MediaCatalog

open Wire

/-! ### Single values -/

theorem decode_fst (input : List UInt8) (next : NodeId) :
    (MediaCatalog.decode input next).1 = (Decoder.decode {} input next).1.1.map Prod.fst :=
  rfl

section Values

variable {value : Value} (h : Transmissible [value]) (rest : List UInt8) (next : NodeId)
include h

/-- A value comes back as a copy, whatever follows it. -/
theorem decode_encode_value (hdepth : depthOf [value] ≤ maxDepth) :
    ∃ copy, (MediaCatalog.decode (value.encode ++ rest) next).1 = .ok copy ∧
      CopyOf [value] [copy] := by
  have hvalue := Passage.decode_write (h.numbered next) value []
    (fun part hpart => h.admits next part (by simpa [partsOfItems] using hpart)) List.prefix_rfl
    (by simpa [depthOf, levelsOfItems] using hdepth) rest
  refine ⟨value.renamed (passageOf [value] next).rename, ?_, _, h.rename_injOn next, rfl⟩
  rw [decode_fst]
  exact congrArg (fun result => result.1.1.map Prod.fst) hvalue

theorem decode_encode_value_tooDeep (hdepth : maxDepth < depthOf [value]) :
    (MediaCatalog.decode (value.encode ++ rest) next).1 = .error .nestingTooDeep := by
  obtain ⟨decoder, after, hvalue⟩ := Passage.decode_tooDeep (h.numbered next) value []
    (fun part hpart => h.admits next part (by simpa [partsOfItems] using hpart)) List.prefix_rfl
    (by simpa [depthOf, levelsOfItems] using hdepth) rest
  rw [decode_fst]
  exact congrArg (fun result => result.1.1.map Prod.fst) hvalue

end Values

/-! ### Headers -/

/-- A number of four bytes comes back. -/
theorem ofNat_ofBigEndian_word (number : UInt32) :
    UInt32.ofNat (ofBigEndian (word number.toNat)) = number := by
  rw [ofBigEndian_word number.toNat_lt, UInt32.ofNat_toNat]

/-- Three numbers one after another are cut apart again. -/
theorem fields_of_words {first second third : List UInt8} (hfirst : first.length = 4)
    (hsecond : second.length = 4) (hthird : third.length = 4) :
    ((first ++ second ++ third).drop (4 * 0)).take 4 = first ∧
      ((first ++ second ++ third).drop (4 * 1)).take 4 = second ∧
      ((first ++ second ++ third).drop (4 * 2)).take 4 = third := by
  refine ⟨?_, ?_, ?_⟩
  · rw [List.append_assoc, Nat.mul_zero, List.drop_zero, List.take_left' hfirst]
  · rw [List.append_assoc, List.drop_left' (by omega), List.take_left' hsecond]
  · rw [List.drop_left' (by rw [List.length_append]; omega), List.take_of_length_le (by omega)]

/-! ### Messages -/

namespace Message

variable (message : Message) (next : NodeId)

/-- The first eight bytes tell who asked, whatever comes after them. -/
theorem peekHeader?_of_prefix {input : List UInt8} (h : message.encode.take 8 <+: input) :
    peekHeader? input = some (message.request, message.object.number) := by
  obtain ⟨rest, rfl⟩ := h
  have hheader : message.encode.take 8 =
      word message.request.toNat ++ word message.object.number.toNat := by
    rw [encode, List.append_assoc, List.take_left' (by simp)]
  unfold peekHeader?
  rw [hheader, List.append_assoc, splitAt?_append (length_word _)]
  simp only [Option.bind_eq_bind, Option.bind_some]
  rw [splitAt?_append (length_word _)]
  simp only [Option.bind_some, ofNat_ofBigEndian_word]
  rfl

theorem peekHeader?_encode :
    peekHeader? message.encode = some (message.request, message.object.number) :=
  message.peekHeader?_of_prefix (List.take_prefix ..)

/-- The arguments decide what a message comes to, and the header comes back, whatever follows. -/
theorem decode_encode_append (rest : List UInt8) :
    (decode (message.encode ++ rest) next).1 =
      match (MediaCatalog.decode ((Value.list message.args).encode ++ rest) next).1 with
      | .error error => .error error
      | .ok (.list args) => .ok { message with args }
      | .ok _ => .error .malformedMessage := by
  obtain ⟨hrequest, hobject, hcommand⟩ := fields_of_words (length_word message.request.toNat)
    (length_word message.object.number.toNat) (length_word message.command.toNat)
  unfold decode encode
  rw [List.append_assoc, splitAt?_append (by simp)]
  simp only [hrequest, hobject, hcommand, ofNat_ofBigEndian_word, ServerObject.ofNumber?_number]
  simp only [bind, StateT.bind]
  generalize MediaCatalog.decode ((Value.list message.args).encode ++ rest) next = result
  obtain ⟨outcome, after⟩ := result
  cases outcome with
  | error cause => rfl
  | ok value => cases value <;> rfl

section Arguments

variable {message} (h : Transmissible [.list message.args])
include h

/-- A message comes back with copies of its arguments, whatever follows it. -/
theorem decode_encode_rest (rest : List UInt8)
    (hdepth : depthOf [.list message.args] ≤ maxDepth) :
    ∃ args, (decode (message.encode ++ rest) next).1 = .ok { message with args } ∧
      CopyOf message.args args := by
  obtain ⟨copy, hdecode, hcopy⟩ := decode_encode_value h rest next hdepth
  obtain ⟨args, rfl, hargs⟩ := hcopy.of_list
  exact ⟨args, by rw [decode_encode_append, hdecode], hargs⟩

theorem decode_encode (hdepth : depthOf [.list message.args] ≤ maxDepth) :
    ∃ args, (decode message.encode next).1 = .ok { message with args } ∧
      CopyOf message.args args := by
  simpa only [List.append_nil] using decode_encode_rest next h [] hdepth

theorem decode_encode_tooDeep (hdepth : maxDepth < depthOf [.list message.args]) :
    (decode message.encode next).1 = .error .nestingTooDeep := by
  have hdecode := decode_encode_append message next []
  rwa [decode_encode_value_tooDeep h [] next hdepth, List.append_nil] at hdecode

end Arguments

end Message

/-! ### Deliveries -/

namespace Delivery

variable (delivery : Delivery) (next : NodeId)

/-- The payload decides what a delivery comes to, and the header comes back, whatever follows. -/
theorem decode_encode_append (rest : List UInt8) :
    (decode (delivery.encode ++ rest) next).1 =
      (MediaCatalog.decode (delivery.payload.encode ++ rest) next).1.map fun payload =>
        { delivery with payload } := by
  obtain ⟨request, object, number, payload⟩ := delivery
  obtain ⟨hrequest, hobject, hnumber⟩ := fields_of_words
    (length_word (request.getD 0).toNat) (length_word object.toNat) (length_word number.toNat)
  have hencode : encode ⟨request, object, number, payload⟩ =
      ((if request.isSome then 1 else 0) ::
        (word (request.getD 0).toNat ++ word object.toNat ++ word number.toNat)) ++
          payload.encode := rfl
  rw [decode, hencode, List.append_assoc, splitAt?_append (by simp)]
  simp only [List.drop_succ_cons, hrequest, hobject, hnumber, ofNat_ofBigEndian_word,
    List.headD_cons, bind, StateT.bind]
  generalize MediaCatalog.decode (payload.encode ++ rest) next = result
  obtain ⟨outcome, after⟩ := result
  cases outcome with
  | error cause => rfl
  | ok value => cases request <;> rfl

theorem decode_encode_fst :
    (decode delivery.encode next).1 =
      (MediaCatalog.decode delivery.payload.encode next).1.map fun payload =>
        { delivery with payload } := by
  simpa only [List.append_nil] using delivery.decode_encode_append next []

section Payload

variable {delivery} (h : Transmissible [delivery.payload])
include h

/-- A delivery comes back with a copy of its payload, whatever follows it. -/
theorem decode_encode_rest (rest : List UInt8) (hdepth : depthOf [delivery.payload] ≤ maxDepth) :
    ∃ payload, (decode (delivery.encode ++ rest) next).1 = .ok { delivery with payload } ∧
      CopyOf [delivery.payload] [payload] := by
  obtain ⟨copy, hdecode, hcopy⟩ := decode_encode_value h rest next hdepth
  exact ⟨copy, by rw [decode_encode_append, hdecode]; rfl, hcopy⟩

theorem decode_encode (hdepth : depthOf [delivery.payload] ≤ maxDepth) :
    ∃ payload, (decode delivery.encode next).1 = .ok { delivery with payload } ∧
      CopyOf [delivery.payload] [payload] := by
  simpa only [List.append_nil] using decode_encode_rest next h [] hdepth

theorem decode_encode_tooDeep (hdepth : maxDepth < depthOf [delivery.payload]) :
    (decode delivery.encode next).1 = .error .nestingTooDeep := by
  have hdecode := delivery.decode_encode_append next []
  rwa [decode_encode_value_tooDeep h [] next hdepth, List.append_nil] at hdecode

end Payload

end Delivery

/-! ### What arrives -/

/-- The payload of an error is one text. -/
theorem Delivery.depthOf_reply_error (request object : UInt32) (cause : Error) :
    depthOf [(reply request object (.error cause)).payload] = 1 := by
  cases cause with
  | _ => rfl

/-- Frames survive the wire. A message or a delivery that is not too deep comes back with the same
header and copies of its values, whatever bytes follow; so do a request with number 0 and a
broadcast, which has no request. Who sent a message can be told from its first eight bytes, cut off
or continued in any way. A reply that comes back tells the outcome that it was made of, if that is a
value, a lookup miss or a message of the server, and any other error as a message of its text. -/
theorem frames_survive :
    (∀ (message : Message) rest next, Transmissible [.list message.args] →
      depthOf [.list message.args] ≤ maxDepth →
        ∃ args, (Message.decode (message.encode ++ rest) next).1 = .ok { message with args } ∧
          CopyOf message.args args) ∧
    (∀ (delivery : Delivery) rest next, Transmissible [delivery.payload] →
      depthOf [delivery.payload] ≤ maxDepth →
        ∃ payload, (Delivery.decode (delivery.encode ++ rest) next).1 =
          .ok { delivery with payload } ∧ CopyOf [delivery.payload] [payload]) ∧
    (∀ (message : Message) input, message.encode.take 8 <+: input →
      Message.peekHeader? input = some (message.request, message.object.number)) ∧
    (∀ request object (outcome : Except Error Value) rest next,
      Transmissible [(Delivery.reply request object outcome).payload] →
      (∀ value, outcome = .ok value → depthOf [value] ≤ maxDepth) →
        ∃ arrived,
          (Delivery.decode ((Delivery.reply request object outcome).encode ++ rest) next).1 =
            .ok arrived ∧
          match outcome with
          | .ok value => ∃ copy, arrived.outcome = .ok copy ∧ CopyOf [value] [copy]
          | .error (.notFound what) => arrived.outcome = .error (.notFound what)
          | .error (.remote reason) => arrived.outcome = .error (.remote reason)
          | .error cause => arrived.outcome = .error (.remote cause.message)) := by
  refine ⟨fun message rest next h hdepth => Message.decode_encode_rest next h rest hdepth,
    fun delivery rest next h hdepth => Delivery.decode_encode_rest next h rest hdepth,
    fun message input h => message.peekHeader?_of_prefix h, ?_⟩
  intro request object outcome rest next h hshallow
  have hdepth : depthOf [(Delivery.reply request object outcome).payload] ≤ maxDepth := by
    cases outcome with
    | ok value => exact hshallow value rfl
    | error cause => rw [Delivery.depthOf_reply_error]; decide
  obtain ⟨payload, hdecode, hcopy⟩ := Delivery.decode_encode_rest next h rest hdepth
  refine ⟨_, hdecode, ?_⟩
  cases outcome with
  | ok value => exact ⟨payload, rfl, hcopy⟩
  | error cause =>
      -- A text has no nodes, so its copy is the same text.
      obtain ⟨rename, -, hpayload⟩ := hcopy
      cases cause with
      | _ =>
          obtain rfl := List.singleton_inj.mp hpayload
          rfl

/-- A message may hold any text that is not too long. -/
theorem transmissible_error {text : String} (h : text.utf8ByteSize < 2 ^ 32) :
    Transmissible [.error text] where
  shared := by simp [WellShared, SharedNodes, nodesOfItems, Value.nodes]
  keyed := by simp [partsOfItems, Value.parts, Value.Keyed]
  sized := by simpa [partsOfItems, Value.parts, Value.Sized] using h
  counted := by simp [identities, nodesOfItems, Value.nodes]

/-- A command that nobody knows, whose arguments share a node. -/
def sharingMessage : Message := ⟨0, .collection, 40, sharingValues⟩

theorem transmissible_sharingMessage : Transmissible [.list sharingMessage.args] where
  shared := by
    have hshared : SharedNodes (nodesOfItems sharingMessage.args) :=
      transmissible_sharingValues.shared
    simpa [WellShared, nodesOfItems, Value.nodes] using hshared
  keyed part hpart := by
    simp only [partsOfItems, Value.parts, List.append_nil, List.mem_cons] at hpart
    rcases hpart with rfl | hpart
    · trivial
    · exact transmissible_sharingValues.keyed part hpart
  sized part hpart := by
    simp only [partsOfItems, Value.parts, List.append_nil, List.mem_cons] at hpart
    rcases hpart with rfl | hpart
    · simp [Value.Sized, sharingMessage, sharingValues]
    · exact transmissible_sharingValues.sized part hpart
  counted := by decide

/-- A message with shared nodes before another byte, and the same message with its body cut off; a
broadcast, which is not an answer to the request with number 0; a reply with an error as its value,
and one that fails. -/
theorem frames_survive_sharing :
    (∃ args, (Message.decode (sharingMessage.encode ++ [255]) 30).1 =
      .ok { sharingMessage with args } ∧ CopyOf sharingValues args) ∧
    Message.peekHeader? (sharingMessage.encode.take 8) = some (0, 1) ∧
    (∃ payload, (Delivery.decode ((Delivery.broadcast 1 1 (.error "lost")).encode ++ []) 30).1 =
      .ok ⟨none, 1, 1, payload⟩) ∧
    (∃ arrived, (Delivery.decode
        ((Delivery.reply 0 1 (.ok (.error "lost"))).encode ++ []) 30).1 = .ok arrived ∧
      ∃ copy, arrived.outcome = .ok copy ∧ CopyOf [.error "lost"] [copy]) ∧
    ∃ arrived, (Delivery.decode
        ((Delivery.reply 0 1 (.error .queueFull)).encode ++ []) 30).1 = .ok arrived ∧
      arrived.outcome = .error (.remote "Send queue full") := by
  obtain ⟨hmessage, hdelivery, hpeek, hreply⟩ := frames_survive
  have hlost : Transmissible [.error "lost"] := transmissible_error (by decide)
  obtain ⟨payload, hpayload, -⟩ :=
    hdelivery (.broadcast 1 1 (.error "lost")) [] 30 hlost (by decide)
  refine ⟨hmessage sharingMessage [255] 30 transmissible_sharingMessage (by decide),
    hpeek sharingMessage _ (List.prefix_refl _), ⟨payload, hpayload⟩,
    hreply 0 1 (.ok (.error "lost")) [] 30 hlost fun value hvalue => ?_,
    hreply 0 1 (.error .queueFull) [] 30 (transmissible_error (by decide)) fun value hvalue => ?_⟩
  · obtain rfl := Except.ok.inj hvalue
    decide
  · cases hvalue

end MediaCatalog
