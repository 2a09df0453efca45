import MediaCatalog.Proofs.Network.Direct
import MediaCatalog.Proofs.Wire.Frames

/-!
Turns of the reader. A turn takes one frame, carries out its message and hands the answer over to
the client. Seen from a client that is alone on the network, a turn does what a direct call does
and hands over exactly one answer; broadcasts on the way only add to what the client saw.
-/

namespace MediaCatalog

open Wire

variable {η : Type}

/-! ### Steps of a turn -/

/-- The client with these frames waiting. -/
def Client.withQueue (client : LinkedClient η) (queue : List Frame) : LinkedClient η :=
  { client with channel := { client.channel with queue } }

namespace Network

/-- Deliver to a client, and tell what arrived. -/
def handOver (network : Network η) (index : Nat) (delivery : Delivery) :
    Build (Option Delivery × Network η) := do
  match network.client? index with
  | none => return (none, network)
  | some client =>
    match ← arrival client delivery with
    | none => return (none, network)
    | some arrived =>
      if client.channel.connected then
        return (some arrived, network.setClient index (client.receive arrived))
      else return (none, network)

/-- What the reader replies to a frame, before this is delivered. -/
def respond (network : Network η) (index : Nat) (frame : Frame) :
    Build (Option Delivery × Network η) := do
  match ← unpack frame with
  | .error cause =>
    return ((sender? frame).map fun (request, object) =>
      Delivery.reply request object (.error (.wire cause)), network)
  | .ok message =>
    match network.client? index with
    | none => return (none, network)
    | some client =>
      if client.channel.connected then
        let (outcome, network) ←
          match message.object with
          | .signal => pure (network.serveSignal index client message.command message.args)
          | object => network.call object message.command message.args
        return (some (Delivery.reply message.request message.object.number outcome), network)
      else return (none, network)

/-- A turn of the reader, and the answer that arrived. -/
def turn (network : Network η) (index : Nat) : Build (Option Delivery × Network η) :=
  match network.client? index with
  | none => return (none, network)
  | some client =>
    match client.channel.queue with
    | [] => return (none, network)
    | frame :: rest => do
      match ← (network.setClient index (client.withQueue rest)).respond index frame with
      | (none, network) => return (none, network)
      | (some reply, network) => network.handOver index reply

theorem deliver_eq_handOver (network : Network η) (index : Nat) (delivery : Delivery) :
    network.deliver index delivery = Prod.snd <$> network.handOver index delivery := by
  funext next
  unfold deliver handOver
  cases network.client? index with
  | none => rfl
  | some client =>
      simp only [bind, StateT.bind, Functor.map, StateT.map]
      generalize arrival client delivery next = result
      obtain ⟨arrived, next⟩ := result
      cases arrived with
      | none => rfl
      | some arrived =>
          dsimp only
          split
          · rfl
          · rfl

/-- Serving a frame is replying to it and delivering the reply. -/
theorem serve_eq_respond (network : Network η) (index : Nat) (frame : Frame) :
    network.serve index frame = (network.respond index frame >>= fun
      | (none, network) => pure network
      | (some reply, network) => network.deliver index reply) := by
  funext next
  unfold serve respond
  simp only [bind, StateT.bind]
  generalize unpack frame next = result
  obtain ⟨unpacked, next⟩ := result
  cases unpacked with
  | error cause =>
      dsimp only
      cases sender? frame with
      | none => rfl
      | some header => rfl
  | ok message =>
      dsimp only
      cases network.client? index with
      | none => rfl
      | some client =>
          dsimp only
          split
          · rw [answer]
            cases message.object <;> rfl
          · rfl

/-- Turns are what the reader does. -/
theorem readOne_eq_turn (network : Network η) (index : Nat) :
    network.readOne index = Prod.snd <$> network.turn index := by
  unfold readOne turn
  cases network.client? index with
  | none => rfl
  | some client =>
      dsimp only
      cases client.channel.queue with
      | nil => rfl
      | cons frame rest =>
          dsimp only
          rw [serve_eq_respond, ← Client.withQueue]
          funext next
          simp only [bind, StateT.bind, Functor.map, StateT.map]
          generalize respond _ index frame next = result
          obtain ⟨⟨reply, network⟩, next⟩ := result
          cases reply with
          | none => rfl
          | some reply =>
              dsimp only
              rw [deliver_eq_handOver]
              rfl

end Network

/-! ### Arrivals -/

namespace Network

theorem afterWire_fst (delivery : Delivery) (next : NodeId) :
    (afterWire delivery next).1 =
      match (Delivery.decode delivery.encode next).1 with
      | .ok decoded => some decoded
      | .error cause => delivery.request.map fun request =>
          Delivery.reply request delivery.object (.error (.wire cause)) := by
  rw [afterWire]
  simp only [bind, StateT.bind]
  generalize Delivery.decode delivery.encode next = result
  obtain ⟨decoded, next⟩ := result
  cases decoded <;> rfl

/-- Broadcasts arrive as broadcasts, if at all. -/
theorem arrival_broadcast {client : LinkedClient η} {delivery arrived : Delivery} {next : NodeId}
    (hbroadcast : delivery.request = none)
    (harrival : (arrival client delivery next).1 = some arrived) : arrived.request = none := by
  rw [arrival] at harrival
  split at harrival
  · rw [afterWire_fst, Delivery.decode_encode_fst] at harrival
    cases hpayload : (MediaCatalog.decode delivery.payload.encode next).1 with
    | error cause => simp [hpayload, Except.map, hbroadcast] at harrival
    | ok payload =>
        simp only [hpayload, Except.map] at harrival
        exact Option.some.inj harrival ▸ hbroadcast
  · exact Option.some.inj harrival ▸ hbroadcast

/-- Under a copy of its payload a reply tells a copy of what it told. -/
theorem outcome_of_payload (request object : UInt32) {outcome : Outcome} {payload : Value}
    (hcopy : CopyOf [payloadOf outcome] [payload]) :
    Outcome.Copied (relayed false outcome)
      { Delivery.reply request object outcome with payload }.outcome := by
  cases outcome with
  | ok value =>
      rw [relayed_ok]
      exact .done hcopy
  | error cause =>
      have hpayload : payload = payloadOf (.error cause) := by
        obtain ⟨text, htext⟩ := exists_payloadOf_error cause
        obtain ⟨rename, -, hcopy⟩ := hcopy
        rw [List.singleton_inj.mp hcopy, htext, Value.renamed]
      rw [hpayload, ← Delivery.payload_reply request object, Delivery.outcome_reply]
      exact .refl _

/-- A reply arrives, with the outcome as the link relays it. -/
theorem arrival_reply {client : LinkedClient η} (request object : UInt32) {outcome : Outcome}
    (hfit : client.channel.settings.wire = true → Transmissible [payloadOf outcome])
    (next : NodeId) :
    ∃ arrived, (arrival client (Delivery.reply request object outcome) next).1 = some arrived ∧
      arrived.request = some request ∧
      Outcome.Copied (relayed client.channel.settings.wire outcome) arrived.outcome := by
  rw [arrival]
  cases hwire : client.channel.settings.wire with
  | false =>
      refine ⟨_, rfl, rfl, ?_⟩
      rw [Delivery.outcome_reply]
      exact .refl _
  | true =>
      have hpayload := hfit hwire
      rw [← Delivery.payload_reply request object] at hpayload
      simp only [if_true, afterWire_fst]
      by_cases hdepth : depthOf [payloadOf outcome] ≤ maxDepth
      · obtain ⟨payload, hdecode, hcopy⟩ := Delivery.decode_encode next hpayload
          (by rwa [Delivery.payload_reply])
        rw [Delivery.payload_reply] at hcopy
        rw [hdecode]
        refine ⟨_, rfl, rfl, ?_⟩
        rw [relayed_shallow fun value hvalue => by rwa [hvalue] at hdepth]
        exact outcome_of_payload request object hcopy
      · rw [Delivery.decode_encode_tooDeep next hpayload
          (by rw [Delivery.payload_reply]; omega)]
        refine ⟨_, rfl, rfl, ?_⟩
        rw [Delivery.outcome_reply]
        -- Errors travel as texts, which do not nest: the outcome is a value.
        cases outcome with
        | ok value =>
            have hrelayed : relayed true (.ok value) =
                relayed false (.error (.wire .nestingTooDeep)) :=
              if_pos ⟨rfl, not_le.mp hdepth⟩
            rw [hrelayed]
            exact .refl _
        | error cause =>
            obtain ⟨text, htext⟩ := exists_payloadOf_error cause
            rw [htext] at hdepth
            exact absurd (by decide : 1 ≤ maxDepth) hdepth

end Network

/-! ### A client alone on the network -/

/-- The client is the same but for what it saw and what is forwarded to it. -/
def Client.Overhears (client client' : LinkedClient η) : Prop :=
  ∃ events forwarded,
    client' = { client with events, channel := { client.channel with forwarded } }

theorem Client.Overhears.refl (client : LinkedClient η) : client.Overhears client :=
  ⟨_, _, rfl⟩

theorem Client.Overhears.trans {client client' client'' : LinkedClient η}
    (h : client.Overhears client') (h' : client'.Overhears client'') :
    client.Overhears client'' := by
  obtain ⟨_, _, rfl⟩ := h
  obtain ⟨events, forwarded, rfl⟩ := h'
  exact ⟨events, forwarded, rfl⟩

/-- A broadcast only adds to what the client saw. -/
theorem Client.receive_broadcast (client : LinkedClient η) {delivery : Delivery}
    (hbroadcast : delivery.request = none) : client.Overhears (client.receive delivery) := by
  obtain ⟨channel, session, replies, events⟩ := client
  rw [Client.receive]
  cases session with
  | none => exact .refl _
  | some session =>
      simp only [hbroadcast]
      exact ⟨_, channel.forwarded, rfl⟩

namespace Network

variable {network : Network η} {client : LinkedClient η}

theorem client?_zero (hclients : network.clients = [client]) : network.client? 0 = some client := by
  rw [client?, hclients]
  rfl

theorem setClient_zero (hclients : network.clients = [client]) (client' : LinkedClient η) :
    network.setClient 0 client' = { network with clients := [client'] } := by
  rw [setClient, hclients]
  rfl

/-- What arrives is received. -/
theorem handOver_alone (hclients : network.clients = [client])
    (hconnected : client.channel.connected = true) {delivery arrived : Delivery} {next : NodeId}
    (harrival : (arrival client delivery next).1 = some arrived) :
    (network.handOver 0 delivery next).1 =
      (some arrived, { network with clients := [client.receive arrived] }) := by
  rw [handOver]
  simp only [client?_zero hclients, bind, StateT.bind]
  generalize arrival client delivery next = result at harrival ⊢
  obtain ⟨arrived', next⟩ := result
  obtain rfl : arrived' = some arrived := harrival
  simp only [hconnected, if_true, setClient_zero hclients]
  rfl

/-- The service stays as it is, and the client is the same but for what it overhears. -/
def OnlyOverheard (client : LinkedClient η) (network network' : Network η) : Prop :=
  network'.service = network.service ∧
    ∃ client', network'.clients = [client'] ∧ client.Overhears client'

theorem deliver_broadcast (hclients : network.clients = [client]) {delivery : Delivery}
    (hbroadcast : delivery.request = none) (index : Nat) (next : NodeId) :
    OnlyOverheard client network (network.deliver index delivery next).1 := by
  have hsame : OnlyOverheard client network network := ⟨rfl, client, hclients, .refl client⟩
  rw [deliver]
  cases index with
  | succ index =>
      have hnone : network.client? (index + 1) = none := by
        rw [client?, hclients]
        rfl
      rw [hnone]
      exact hsame
  | zero =>
      simp only [client?_zero hclients, bind, StateT.bind]
      have harrived (arrived : Delivery) (h : (arrival client delivery next).1 = some arrived) :=
        arrival_broadcast hbroadcast h
      generalize arrival client delivery next = result at harrived ⊢
      obtain ⟨arrived, next⟩ := result
      cases arrived with
      | none => exact hsame
      | some arrived =>
          dsimp only
          split
          · rw [setClient_zero hclients]
            exact ⟨rfl, _, rfl, client.receive_broadcast (harrived arrived rfl)⟩
          · exact hsame

/-- An announcement only adds to what the client saw. -/
theorem publish_alone (hclients : network.clients = [client]) (announcement : Announcement)
    (next : NodeId) : OnlyOverheard client network (network.publish announcement next).1 := by
  rw [publish]
  induction announcement.listeners generalizing network client next with
  | nil => exact ⟨rfl, client, hclients, .refl client⟩
  | cons observer rest ih =>
      have hforward : OnlyOverheard client network
          (forward announcement.signal announcement.payload network observer next).1 := by
        cases observer with
        | direct name => exact ⟨rfl, client, hclients, .refl client⟩
        | forwarder index => exact deliver_broadcast hclients rfl index next
      simp only [List.foldlM_cons, bind, StateT.bind]
      generalize forward announcement.signal announcement.payload network observer next = result
        at hforward ⊢
      obtain ⟨network', next'⟩ := result
      obtain ⟨hservice, client', hclients', hoverhears⟩ := hforward
      obtain ⟨hservice', client'', hclients'', hoverhears'⟩ := ih hclients' next'
      exact ⟨hservice'.trans hservice, client'', hclients'', hoverhears.trans hoverhears'⟩

/-- A call answers what the service answers. -/
theorem call_alone (hclients : network.clients = [client]) (object : ServerObject)
    (command : UInt32) (args : List Value) (next : NodeId) :
    (network.call object command args next).1.1 =
        (network.service.call object command args next).1.outcome ∧
      OnlyOverheard client { network with service :=
        (network.service.call object command args next).1.service }
        (network.call object command args next).1.2 := by
  rw [call]
  simp only [bind, StateT.bind]
  generalize network.service.call object command args next = result
  obtain ⟨⟨outcome, service, announcement⟩, next⟩ := result
  cases announcement with
  | none => exact ⟨rfl, rfl, client, hclients, .refl client⟩
  | some announcement =>
      have hclients' : { network with service }.clients = [client] := hclients
      have hpublish := publish_alone hclients' announcement next
      simp only [StateT.bind]
      generalize publish { network with service } announcement next = result at hpublish ⊢
      obtain ⟨network', next⟩ := result
      exact ⟨rfl, hpublish⟩

/-- A request to the signal object is served by the channel; the service goes on as before. -/
theorem serveSignal_alone (hclients : network.clients = [client]) (command : UInt32)
    (args : List Value) :
    let result := network.serveSignal 0 client command args
    result.1 = signalOutcome command args ∧ network.service.Mirrors result.2.service ∧
      ∃ client', result.2.clients = [client'] ∧ client.Overhears client' := by
  have hsame : network.service.Mirrors network.service ∧
      ∃ client', network.clients = [client'] ∧ client.Overhears client' :=
    ⟨.refl _, client, hclients, .refl client⟩
  unfold serveSignal signalOutcome
  by_cases hcommand : command = forwardCommand
  · simp only [hcommand, ne_eq, not_true, if_false, true_and]
    cases signalArg? args with
    | none => exact ⟨rfl, hsame⟩
    | some signal =>
        dsimp only
        split
        · exact ⟨rfl, hsame⟩
        · refine ⟨rfl, .connect _ _ _, _, ?_, client.events,
            client.channel.forwarded ++ [signal.number], rfl⟩
          simp only [setClient, hclients]
          rfl
  · simp only [hcommand, ne_eq, not_false_eq_true, if_true, false_and, if_false]
    exact ⟨trivial, hsame⟩

/-- A message that arrives is carried out and answered. -/
theorem respond_message (hclients : network.clients = [client])
    (hconnected : client.channel.connected = true) {frame : Frame} {message : Message}
    {next next' : NodeId} (hunpack : unpack frame next = (.ok message, next')) :
    ∃ outcome network', (network.respond 0 frame next).1 =
        (some (Delivery.reply message.request message.object.number outcome), network') ∧
      outcome = (network.service.carryOut false message next').1.1 ∧
      (network.service.carryOut false message next').1.2.Mirrors network'.service ∧
      ∃ client', network'.clients = [client'] ∧ client.Overhears client' := by
  obtain ⟨request, object, command, args⟩ := message
  have hcall (object : ServerObject) := call_alone hclients object command args next'
  rw [respond]
  simp only [bind, StateT.bind, hunpack, client?_zero hclients, hconnected, if_true]
  cases object with
  | signal =>
      obtain ⟨houtcome, hservice, hclient⟩ := serveSignal_alone hclients command args
      exact ⟨_, _, rfl, houtcome, hservice, hclient⟩
  | collection =>
      obtain ⟨houtcome, hservice, hclient⟩ := hcall .collection
      exact ⟨_, _, rfl, houtcome, hservice ▸ .refl _, hclient⟩
  | sync =>
      obtain ⟨houtcome, hservice, hclient⟩ := hcall .sync
      exact ⟨_, _, rfl, houtcome, hservice ▸ .refl _, hclient⟩

/-- A message that nests too deep is answered without being carried out. -/
theorem respond_tooDeep {message : Message} (hfit : Transmissible [.list message.args])
    (hdeep : message.TooDeep) (network : Network η) (next : NodeId) :
    (network.respond 0 (.encoded message.encode) next).1 =
      (some (Delivery.reply message.request message.object.number (.error (.wire .nestingTooDeep))),
        network) := by
  have hunpack : (unpack (.encoded message.encode) next).1 = .error .nestingTooDeep :=
    Message.decode_encode_tooDeep next hfit hdeep
  rw [respond]
  simp only [bind, StateT.bind]
  generalize unpack (.encoded message.encode) next = result at hunpack ⊢
  obtain ⟨unpacked, next⟩ := result
  obtain rfl : unpacked = .error .nestingTooDeep := hunpack
  simp only [sender?, Message.peekHeader?_encode]
  rfl

/-- What the link needs to carry a message and its answer: nothing if it does not encode. If it
does, the service and the arguments are in order, and lengths fit into four bytes. -/
structure Fit (wire : Bool) (direct : Service) (message : Message) (outcome : Outcome) : Prop where
  sound : wire = true → direct.Sound
  args : wire = true → Transmissible [.list message.args]
  compact : wire = true → Compact [payloadOf outcome]

/-- The payload of a carried message can be encoded. -/
theorem Fit.transmissible {wire : Bool} {direct : Service} {message : Message} {start : NodeId}
    (h : Fit wire direct message (direct.carryOut wire message start).1.1) (hwire : wire = true) :
    Transmissible [payloadOf (direct.carryOut wire message start).1.1] := by
  have hargs : WellFormed message.args := (h.args hwire).toWellFormed.of_list
  exact ⟨payloadOf_wellFormed ((h.sound hwire).carryOut hargs wire start).1, h.compact hwire⟩

section Turns

variable {direct : Service} (hdirect : direct.Mirrors network.service) {message : Message}
  {start : NodeId}
  (hfit : Fit client.channel.settings.wire direct message
    (direct.carryOut client.channel.settings.wire message start).1.1)
include hdirect hfit

/-- Replying to a frame does what a direct call with its message does. -/
theorem respond_frame (hclients : network.clients = [client])
    (hconnected : client.channel.connected = true) (next : NodeId) :
    ∃ outcome network', (network.respond 0 (client.channel.frame message) next).1 =
        (some (Delivery.reply message.request message.object.number outcome), network') ∧
      Outcome.Copied (direct.carryOut client.channel.settings.wire message start).1.1 outcome ∧
      (direct.carryOut client.channel.settings.wire message start).1.2.Mirrors network'.service ∧
      ∃ client', network'.clients = [client'] ∧ client.Overhears client' := by
  -- In whichever form it waited, the message is carried out with copies of its arguments.
  have hcarried {args : List Value} (hargs : CopyOf message.args args) (next' : NodeId)
      (hunpack : unpack (client.channel.frame message) next =
        (.ok { message with args }, next')) :
      ∃ outcome network', (network.respond 0 (client.channel.frame message) next).1 =
          (some (Delivery.reply message.request message.object.number outcome), network') ∧
        Outcome.Copied (direct.carryOut false message start).1.1 outcome ∧
        (direct.carryOut false message start).1.2.Mirrors network'.service ∧
        ∃ client', network'.clients = [client'] ∧ client.Overhears client' := by
    obtain ⟨outcome, network', hrespond, houtcome, hservice, hclient⟩ :=
      respond_message hclients hconnected hunpack
    obtain ⟨hcopied, hmirrors⟩ := hdirect.carryOut hargs start next'
    exact ⟨outcome, network', hrespond, houtcome ▸ hcopied, hmirrors.trans hservice, hclient⟩
  cases hwire : client.channel.settings.wire with
  | false =>
      refine hcarried (CopyOf.refl _) next ?_
      rw [Link.frame, hwire]
      rfl
  | true =>
      have hargs := hfit.args hwire
      by_cases hdeep : message.TooDeep
      · rw [Service.carryOut_tooDeep hdeep, Link.frame, hwire, if_pos rfl]
        exact ⟨_, network, respond_tooDeep hargs hdeep network next, .refl _, hdirect, client,
          hclients, .refl client⟩
      · obtain ⟨args, hdecode, hcopy⟩ := Message.decode_encode next hargs (not_lt.mp hdeep)
        rw [Service.carryOut_shallow hdeep]
        refine hcarried hcopy (Message.decode message.encode next).2 ?_
        rw [Link.frame, hwire, if_pos rfl]
        exact Prod.ext hdecode rfl

/-- A turn does what a direct call with the oldest message does, and hands over its outcome. -/
theorem turn_frame {rest : List Frame} (hclients : network.clients = [client])
    (hconnected : client.channel.connected = true)
    (hqueue : client.channel.queue = client.channel.frame message :: rest) (next : NodeId) :
    ∃ arrived client', (network.turn 0 next).1.1 = some arrived ∧
      arrived.request = some message.request ∧
      Outcome.Copied (relayed client.channel.settings.wire
        (direct.carryOut client.channel.settings.wire message start).1.1) arrived.outcome ∧
      (direct.carryOut client.channel.settings.wire message start).1.2.Mirrors
        (network.turn 0 next).1.2.service ∧
      (network.turn 0 next).1.2.clients = [client'.receive arrived] ∧
      (client.withQueue rest).Overhears client' := by
  have hclients' : (network.setClient 0 (client.withQueue rest)).clients =
      [client.withQueue rest] := by
    rw [setClient_zero hclients]
  have hdirect' : direct.Mirrors (network.setClient 0 (client.withQueue rest)).service := hdirect
  have hfit' : Fit (client.withQueue rest).channel.settings.wire direct message
      (direct.carryOut (client.withQueue rest).channel.settings.wire message start).1.1 := hfit
  obtain ⟨outcome, network', hrespond, hcopied, hservice, client', hclient, hoverhears⟩ :=
    respond_frame hdirect' hfit' hclients' hconnected next
  rw [turn]
  simp only [client?_zero hclients, hqueue, bind, StateT.bind]
  change (respond _ 0 (client.channel.frame message) next).1 = _ at hrespond
  generalize respond _ 0 (client.channel.frame message) next = result at hrespond ⊢
  obtain ⟨replied, next'⟩ := result
  obtain rfl := hrespond
  have hsettings : client'.channel.settings = client.channel.settings := by
    obtain ⟨_, _, rfl⟩ := hoverhears
    rfl
  have hconnected' : client'.channel.connected = true := by
    obtain ⟨_, _, rfl⟩ := hoverhears
    exact hconnected
  -- The answer is a copy of what a direct call answers, so it can be encoded as well.
  have hpayload (hwire : client'.channel.settings.wire = true) :
      Transmissible [payloadOf outcome] := by
    rw [hsettings] at hwire
    exact (hfit.transmissible hwire).copy (payloadOf_copied hcopied)
  obtain ⟨arrived, harrival, hrequest, houtcome⟩ :=
    arrival_reply message.request message.object.number hpayload next'
  have hhanded := handOver_alone hclient hconnected' harrival
  rw [hsettings] at houtcome
  rw [hhanded]
  exact ⟨arrived, client', rfl, hrequest, (relayed_copied _ hcopied).trans houtcome, hservice, rfl,
    hoverhears⟩

end Turns

end Network

end MediaCatalog
