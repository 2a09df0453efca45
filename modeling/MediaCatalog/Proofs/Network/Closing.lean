import MediaCatalog.Proofs.Network.Orderly

/-!
Closing. Once the link of a client is closed nothing comes of it any more. Its reader goes on taking
the frames that wait, and drops each of them: the service is not called and nobody is told anything.
What waited for an answer has failed, all subscriptions ended, and no message leaves. The forwarders
of the client are gone, and everybody else goes on as before.
-/

namespace MediaCatalog

variable {η : Type}

namespace Network

/-! ### Turns, and what is announced in them -/

/-- Call a command of the service, and tell what it announced. -/
def callNoting (network : Network η) (object : ServerObject) (command : UInt32)
    (args : List Value) : Build (Option Announcement × Except Error Value × Network η) := do
  let answer ← network.service.call object command args
  let network := { network with service := answer.service }
  match answer.announcement with
  | none => return (none, answer.outcome, network)
  | some announcement =>
    return (some announcement, answer.outcome, ← network.publish announcement)

/-- Carry out a message and answer it, and tell what was announced meanwhile. -/
def answerNoting (network : Network η) (index : Nat) (client : LinkedClient η)
    (message : Message) : Build (Option Announcement × Network η) := do
  let (announced, outcome, network) ←
    match message.object with
    | .signal => pure (none, network.serveSignal index client message.command message.args)
    | object => network.callNoting object message.command message.args
  let network ← network.deliver index
    (Delivery.reply message.request message.object.number outcome)
  return (announced, network)

/-- Serve a frame, and tell what was announced meanwhile. -/
def serveNoting (network : Network η) (index : Nat) (frame : Frame) :
    Build (Option Announcement × Network η) := do
  match ← unpack frame with
  | .error cause =>
    match sender? frame with
    | none => return (none, network)
    | some (request, object) =>
      return (none, ← network.deliver index (Delivery.reply request object (.error (.wire cause))))
  | .ok message =>
    match network.client? index with
    | none => return (none, network)
    | some client =>
      if client.channel.connected then network.answerNoting index client message
      else return (none, network)

/-- A turn of the reader, and what was announced in it. -/
def readNoting (network : Network η) (index : Nat) : Build (Option Announcement × Network η) :=
  match network.client? index with
  | none => return (none, network)
  | some client =>
    match client.channel.queue with
    | [] => return (none, network)
    | frame :: rest => (network.setClient index (client.withQueue rest)).serveNoting index frame

theorem call_eq_callNoting (network : Network η) (object : ServerObject) (command : UInt32)
    (args : List Value) :
    network.call object command args = Prod.snd <$> network.callNoting object command args := by
  funext next
  simp only [call, callNoting, bind, StateT.bind, Functor.map, StateT.map]
  generalize network.service.call object command args next = result
  obtain ⟨⟨outcome, service, announcement⟩, next⟩ := result
  cases announcement <;> rfl

theorem answer_eq_answerNoting (network : Network η) (index : Nat) (client : LinkedClient η)
    (message : Message) :
    network.answer index client message =
      Prod.snd <$> network.answerNoting index client message := by
  rw [answer, answerNoting]
  cases message.object with
  | signal => rfl
  | collection =>
      dsimp only
      rw [call_eq_callNoting]
      rfl
  | sync =>
      dsimp only
      rw [call_eq_callNoting]
      rfl

theorem serve_eq_serveNoting (network : Network η) (index : Nat) (frame : Frame) :
    network.serve index frame = Prod.snd <$> network.serveNoting index frame := by
  funext next
  simp only [serve, serveNoting, bind, StateT.bind, Functor.map, StateT.map]
  generalize unpack frame next = result
  obtain ⟨unpacked, next⟩ := result
  cases unpacked with
  | error cause =>
      dsimp only
      cases sender? frame <;> rfl
  | ok message =>
      dsimp only
      cases network.client? index with
      | none => rfl
      | some client =>
          dsimp only
          split
          · rw [answer_eq_answerNoting]
            rfl
          · rfl

/-- Turns with what is announced are what the reader does. -/
theorem readOne_eq_readNoting (network : Network η) (index : Nat) :
    network.readOne index = Prod.snd <$> network.readNoting index := by
  rw [readOne, readNoting]
  cases network.client? index with
  | none => rfl
  | some client =>
      dsimp only
      cases client.channel.queue with
      | nil => rfl
      | cons frame rest => exact serve_eq_serveNoting _ index frame

end Network

/-! ### Clients at rest -/

/-- The client goes on without a link, and hears of nothing. -/
structure Client.Idles (before after : LinkedClient η) : Prop where
  closed : after.channel.connected = false
  replies : after.replies = before.replies
  events : after.events = before.events

/-- The client goes on without a link, and what its replies came to stays. -/
structure Client.Rests (before after : LinkedClient η) : Prop where
  closed : after.channel.connected = false
  settled : ∀ (i : Nat) reply, before.replies[i]? = some reply → reply.settlement ≠ .sent →
    ∃ reply', after.replies[i]? = some reply' ∧ reply'.request = reply.request ∧
      reply'.settlement = reply.settlement

namespace Client

variable {client client' client'' : LinkedClient η}

theorem Idles.refl (hclosed : client.channel.connected = false) : client.Idles client :=
  ⟨hclosed, rfl, rfl⟩

theorem Idles.trans (h : client.Idles client') (h' : client'.Idles client'') :
    client.Idles client'' :=
  ⟨h'.closed, h'.replies.trans h.replies, h'.events.trans h.events⟩

theorem Idles.rests (h : client.Idles client') : client.Rests client' := by
  refine ⟨h.closed, fun i reply hreply _ => ⟨reply, ?_, rfl, rfl⟩⟩
  rw [h.replies, hreply]

theorem Rests.trans (h : client.Rests client') (h' : client'.Rests client'') :
    client.Rests client'' := by
  refine ⟨h'.closed, fun i reply hreply hsettled => ?_⟩
  obtain ⟨reply', hreply', hrequest, hsettlement⟩ := h.settled i reply hreply hsettled
  obtain ⟨reply'', hreply'', hrequest', hsettlement'⟩ :=
    h'.settled i reply' hreply' (hsettlement ▸ hsettled)
  exact ⟨reply'', hreply'', hrequest'.trans hrequest, hsettlement'.trans hsettlement⟩

/-- What a client does by itself cannot settle a reply again, and without a link it can do no more
than end subscriptions, register callbacks and cancel. -/
theorem Acts.rests (hclosed : client.channel.connected = false) (hacts : client.Acts client') :
    client.Rests client' := by
  refine ⟨hacts.alike.connected.trans hclosed, fun i reply hreply hsettled => ?_⟩
  have hsame : ∃ reply', client.replies[i]? = some reply' ∧ reply'.request = reply.request ∧
      reply'.settlement = reply.settlement := ⟨reply, hreply, rfl, rfl⟩
  cases hacts with
  | idle => exact hsame
  | send _ command =>
      rw [sendOver_closed hclosed]
      exact hsame
  | subscribe _ signal subscriber =>
      rw [subscribe_closed hclosed]
      exact hsame
  | unsubscribe => exact hsame
  | @register index found hfound callback given =>
      show ∃ reply', (client.replies.set index { found with callback })[i]? = some reply' ∧ _
      simp only [getElem?_set_eq_some hfound]
      by_cases hhere : i = index
      · subst hhere
        obtain rfl := Option.some.inj (hfound.symm.trans hreply)
        exact ⟨_, .inl ⟨rfl, rfl⟩, rfl, rfl⟩
      · exact ⟨reply, .inr ⟨hhere, hreply⟩, rfl, rfl⟩
  | @cancel index found hfound hsent =>
      -- What is cancelled waited, so it is another reply.
      have hother : i ≠ index := by
        rintro rfl
        obtain rfl := Option.some.inj (hfound.symm.trans hreply)
        exact hsettled hsent
      have hkept : (client.replies.set index found.cancel.1)[i]? = some reply :=
        (getElem?_set_eq_some hfound).mpr (.inr ⟨hother, hreply⟩)
      refine ⟨reply, ?_, rfl, rfl⟩
      simp only [Client.cancel, reply?, hfound]
      split <;> exact hkept

end Client

namespace Network

variable {network network' : Network η} {index : Nat} {client : LinkedClient η}

theorem client?_close_of_ne (network : Network η) {place other : Nat} (hne : place ≠ other) :
    (network.close place).client? other = network.client? other := by
  rw [close]
  cases network.client? place with
  | none => rfl
  | some client =>
      dsimp only
      split
      · rfl
      · rw [client?_setClient, if_neg hne]
        rfl

theorem client?_drop (network : Network η) (place other : Nat) :
    (network.drop place).client? other =
      if place = other then (network.client? other).map fun client =>
        { client with channel := { client.channel with
            connected := false, queue := [], forwarded := [] } }.dropSession
      else network.client? other := by
  rw [drop]
  cases hplace : network.client? place with
  | none =>
      show network.client? other = _
      split
      · next hsame =>
        rw [← hsame, hplace]
        rfl
      · rfl
  | some client =>
      dsimp only
      rw [client?_setClient]
      split
      · next hsame =>
        subst hsame
        show (network.client? place).map _ = (network.client? place).map _
        rw [hplace]
        rfl
      · rfl

/-- Closing a link again changes nothing. -/
theorem close_closed (hclient : network.client? index = some client)
    (hclosed : client.channel.connected = false) : network.close index = network := by
  simp only [close, hclient, hclosed, Bool.not_false, if_true]

section Idle

variable (hclient : network.client? index = some client)
  (hclosed : client.channel.connected = false)
include hclient hclosed

/-- Another client changes, or the client does while it idles. -/
theorem idles_setClient {place : Nat} {before after : LinkedClient η}
    (hbefore : network.client? place = some before)
    (hidles : place = index → before.Idles after) (service : Service) :
    ∃ client', ({ network with service }.setClient place after).client? index = some client' ∧
      client.Idles client' := by
  rw [client?_setClient]
  by_cases hsame : place = index
  · subst hsame
    obtain rfl := Option.some.inj (hbefore.symm.trans hclient)
    rw [if_pos rfl]
    refine ⟨after, ?_, hidles rfl⟩
    show (network.client? place).map _ = some after
    rw [hclient]
    rfl
  · rw [if_neg hsame]
    exact ⟨client, hclient, .refl hclosed⟩

/-- No small change reaches a client whose link is closed. -/
theorem Change.idles (hchange : network.Change network') :
    ∃ client', network'.client? index = some client' ∧ client.Idles client' := by
  have hopen {place : Nat} {other after : LinkedClient η}
      (hother : network.client? place = some other) (hconnected : other.channel.connected = true)
      (hsame : place = index) : other.Idles after := by
    subst hsame
    obtain rfl := Option.some.inj (hother.symm.trans hclient)
    rw [hclosed] at hconnected
    cases hconnected
  cases hchange with
  | serve hserves => exact ⟨client, hclient, .refl hclosed⟩
  | hear hother hconnected delivery =>
      exact idles_setClient hclient hclosed hother (hopen hother hconnected) _
  | forward hother hconnected signal =>
      exact idles_setClient hclient hclosed hother (hopen hother hconnected) _
  | dequeue hother =>
      refine idles_setClient hclient hclosed hother (fun hsame => ?_) _
      subst hsame
      obtain rfl := Option.some.inj (hother.symm.trans hclient)
      exact ⟨hclosed, rfl, rfl⟩
  | post place message =>
      rw [Network.post]
      cases hother : network.client? place with
      | none => exact ⟨client, hclient, .refl hclosed⟩
      | some other =>
          refine idles_setClient hclient hclosed hother (fun hsame => ?_) _
          subst hsame
          obtain rfl := Option.some.inj (hother.symm.trans hclient)
          exact ⟨(Client.alike_send other.channel message).connected.trans hclosed, rfl, rfl⟩
  | close place =>
      by_cases hsame : place = index
      · subst hsame
        rw [close_closed hclient hclosed]
        exact ⟨client, hclient, .refl hclosed⟩
      · rw [client?_close_of_ne network hsame]
        exact ⟨client, hclient, .refl hclosed⟩
  | drop place =>
      rw [client?_drop]
      split
      · rw [hclient]
        exact ⟨_, rfl, rfl, rfl, rfl⟩
      · exact ⟨client, hclient, .refl hclosed⟩
  | join settings =>
      exact ⟨client, getElem?_append_singleton.mpr (.inl hclient), .refl hclosed⟩

theorem Becomes.idles (hbecomes : network.Becomes network') :
    ∃ client', network'.client? index = some client' ∧ client.Idles client' := by
  induction hbecomes with
  | refl => exact ⟨client, hclient, .refl hclosed⟩
  | tail _ hchange ih =>
      obtain ⟨client', hclient', hidles⟩ := ih
      obtain ⟨client'', hclient'', hidles'⟩ := Change.idles hclient' hidles.closed hchange
      exact ⟨client'', hclient'', hidles.trans hidles'⟩

/-- Nothing reaches the client but what it does by itself. -/
theorem step_idles {step : NetworkStep η} (hstep : ¬step.IsBy index) (next : NodeId) :
    ∃ client', (network.step step next).1.client? index = some client' ∧ client.Idles client' := by
  rcases network.step_cases step next with ⟨actor, deed, hown, hby, hact⟩ | hbecomes
  · have hne : actor ≠ index := by
      rintro rfl
      exact hstep hby
    refine ⟨client, ?_, .refl hclosed⟩
    rw [hact, act]
    cases network.client? actor with
    | none => exact hclient
    | some other =>
        dsimp only
        rw [client?_setClient, if_neg hne]
        exact hclient
  · exact Becomes.idles hclient hclosed hbecomes

theorem step_rests (step : NetworkStep η) (next : NodeId) :
    ∃ client', (network.step step next).1.client? index = some client' ∧ client.Rests client' := by
  rcases network.step_cases step next with ⟨actor, deed, hown, -, hact⟩ | hbecomes
  · rw [hact, act]
    cases hother : network.client? actor with
    | none => exact ⟨client, hclient, (Client.Idles.refl hclosed).rests⟩
    | some other =>
        dsimp only
        rw [client?_setClient]
        split
        · next hsame =>
          subst hsame
          obtain rfl := Option.some.inj (hother.symm.trans hclient)
          rw [hclient]
          exact ⟨_, rfl, (Client.acts_step _ hown).rests hclosed⟩
        · exact ⟨client, hclient, (Client.Idles.refl hclosed).rests⟩
  · obtain ⟨client', hclient', hidles⟩ := Becomes.idles hclient hclosed hbecomes
    exact ⟨client', hclient', hidles.rests⟩

theorem run_rests (steps : List (NetworkStep η)) (next : NodeId) :
    ∃ client', (network.run steps next).1.client? index = some client' ∧ client.Rests client' := by
  induction steps generalizing network client next with
  | nil => exact ⟨client, hclient, (Client.Idles.refl hclosed).rests⟩
  | cons step steps ih =>
      obtain ⟨client', hclient', hrests⟩ := step_rests hclient hclosed step next
      obtain ⟨client'', hclient'', hrests'⟩ :=
        ih hclient' hrests.closed (network.step step next).2
      rw [run_cons]
      exact ⟨client'', hclient'', hrests.trans hrests'⟩

end Idle

end Network

/-! ### After a close -/

/-- What there is to a client whose connection is over. It waits for nothing and nobody subscribes
to anything, and whatever is sent or asked for is refused and changes nothing. -/
structure Client.Over (client : LinkedClient η) : Prop where
  waits : ∀ session ∈ client.session, session.pending.isEmpty
  hears : ∀ session ∈ client.session, ∀ signal, session.broadcasts.listeners signal = []
  posts : ∀ message,
    Channel.send client.channel message = (.error .notConnected, client.channel)
  sends : ∀ session ∈ client.session, ∀ command,
    client.sendOver session command = (.error .notConnected, client)
  requests : ∀ session ∈ client.session, ∀ request,
    client.request session request = pure (.error .notConnected, client)
  subscribes : ∀ session ∈ client.session, ∀ signal subscriber,
    client.subscribe session signal subscriber = (.error .notConnected, client)

namespace Network

/-- What the close of a link does to everybody else. The forwarders of the client are gone; all
other listeners stay, in their order, and so does all else. -/
structure Closes (index : Nat) (before closed : Network η) : Prop where
  service : ∃ signals, closed.service =
    { before.service with collection := { before.service.collection with signals } }
  listeners : ∀ signal, closed.service.collection.listeners signal =
    (before.service.collection.listeners signal).filter fun listener =>
      listener.handler ≠ .forwarder index
  clients : ∀ other, other ≠ index → closed.client? other = before.client? other

variable {network : Network η} {index requests : Nat} {client : LinkedClient η}

/-- Nothing arrives over a closed link. -/
theorem handOver_closed (hclient : network.client? index = some client)
    (hclosed : client.channel.connected = false) (delivery : Delivery) (next : NodeId) :
    (network.handOver index delivery next).1 = (none, network) := by
  rw [handOver]
  simp only [hclient, hclosed, Bool.false_eq_true, if_false, bind, StateT.bind]
  generalize arrival client delivery next = result
  obtain ⟨arrived, next⟩ := result
  cases arrived <;> rfl

theorem deliver_closed (hclient : network.client? index = some client)
    (hclosed : client.channel.connected = false) (delivery : Delivery) (next : NodeId) :
    (network.deliver index delivery next).1 = network := by
  rw [deliver_eq_handOver]
  exact congrArg Prod.snd (handOver_closed hclient hclosed delivery next)

/-- The reader of a closed link takes a frame and drops it. -/
theorem readNoting_closed (hclient : network.client? index = some client)
    (hclosed : client.channel.connected = false) (next : NodeId) :
    (network.readNoting index next).1 =
      (none, network.setClient index (client.withQueue client.channel.queue.tail)) := by
  rw [readNoting]
  simp only [hclient]
  cases hqueue : client.channel.queue with
  | nil =>
      have hsame : client.withQueue [] = client := by
        rw [Client.withQueue, ← hqueue]
      rw [List.tail_nil, hsame, setClient_self hclient]
      rfl
  | cons frame rest =>
      have hdropped : (network.setClient index (client.withQueue rest)).client? index =
          some (client.withQueue rest) := by
        rw [client?_setClient, if_pos rfl, hclient]
        rfl
      have hstill : (client.withQueue rest).channel.connected = false := hclosed
      simp only [serveNoting, bind, StateT.bind]
      generalize unpack frame next = result
      obtain ⟨unpacked, next⟩ := result
      cases unpacked with
      | error cause =>
          dsimp only
          cases sender? frame with
          | none => rfl
          | some header =>
              have hlost := deliver_closed hdropped hstill
                (Delivery.reply header.1 header.2 (.error (.wire cause))) next
              exact congrArg (Prod.mk none) hlost
      | ok message =>
          simp only [hdropped, hstill, Bool.false_eq_true, if_false]
          rfl

namespace Orderly

variable (h : network.Orderly requests)
include h

/-- What a link has not noted is not forwarded. -/
theorem not_forwarder (hnoted : network.noted index = []) (signal : UInt32) :
    ∀ listener ∈ network.service.collection.listeners signal,
      listener.handler ≠ .forwarder index := by
  intro listener hlistener hhandler
  have hforwards := h.forwards signal index
  rw [hnoted, List.count_nil, Nat.le_zero] at hforwards
  refine List.countP_eq_zero.mp hforwards listener (List.mem_reverse.mp hlistener) ?_
  exact decide_eq_true hhandler

theorem closes_of_eq (hnoted : network.noted index = []) : Closes index network network := by
  refine ⟨⟨_, rfl⟩, fun signal => (List.filter_eq_self.mpr fun listener hlistener => ?_).symm,
    fun _ _ => rfl⟩
  exact decide_eq_true (h.not_forwarder hnoted signal listener hlistener)

theorem noted_closed (hclient : network.client? index = some client)
    (hclosed : client.channel.connected = false) : network.noted index = [] := by
  rw [noted, hclient]
  exact ((h.clients index client hclient).severed hclosed).forwarded

theorem closes (index : Nat) : Closes index network (network.close index) := by
  rw [Network.close]
  cases hclient : network.client? index with
  | none =>
      refine h.closes_of_eq ?_
      rw [noted, hclient]
      rfl
  | some client =>
      dsimp only
      split
      · next hlost =>
        exact h.closes_of_eq (h.noted_closed hclient (Bool.not_eq_true' _ ▸ hlost))
      · refine ⟨Service.exists_signals_of_disconnectFrom _ _ client.channel.forwarded,
          fun signal => ?_, fun other hother => ?_⟩
        · show Registry.listeners (network.detached index client).collection signal = _
          rw [Registry.listeners, h.connections_detached hclient, Registry.listeners,
            List.filter_reverse]
          simp only [Listener.isOf, decide_not]
        · rw [client?_setClient, if_neg (Ne.symm hother)]
          rfl

/-- After the close the link is closed, and what waited has failed. -/
theorem exists_closed (hclient : network.client? index = some client) :
    ∃ closed, (network.close index).client? index = some closed ∧
      closed.channel.connected = false ∧
      ∀ session ∈ client.session, ∀ request (i : Nat), session.pending[request]? = some i →
        ∃ reply, closed.replies[i]? = some reply ∧ reply.request = request ∧
          reply.settlement = .result (.error .notConnected) := by
  have horderly := h.clients index client hclient
  cases hconnected : client.channel.connected with
  | false =>
      rw [close_closed hclient hconnected]
      refine ⟨client, hclient, hconnected, fun session hopened request i hi => ?_⟩
      rw [(horderly.severed hconnected).pending session hopened] at hi
      cases hi
  | true =>
      simp only [Network.close, hclient, hconnected, Bool.not_true, Bool.false_eq_true, if_false]
      rw [client?_setClient, if_pos rfl]
      refine ⟨_, congrArg (Option.map _) hclient, ?_, fun session hopened request i hi => ?_⟩
      · rw [Client.disconnected_channel]
      · have hknows := (horderly.informed.withChannel
          { client.channel with connected := false, forwarded := [] }).knows
        exact hknows.failed hopened hi

/-- A client is over once its link is closed. -/
theorem isOver (hclient : network.client? index = some client)
    (hclosed : client.channel.connected = false) : client.Over := by
  have horderly := h.clients index client hclient
  have hsevered := horderly.severed hclosed
  refine ⟨fun session hopened => ?_, fun session hopened signal => ?_,
    Client.send_closed hclosed, fun session _ => Client.sendOver_closed hclosed session,
    fun session _ => Client.request_closed hclosed session,
    fun session _ => Client.subscribe_closed hclosed session⟩
  · refine Std.TreeMap.isEmpty_iff_forall_not_mem.mpr fun request hmem => ?_
    rw [Std.TreeMap.mem_iff_isSome_getElem?, hsevered.pending session hopened] at hmem
    cases hmem
  · rw [Registry.listeners, (horderly.informed.knows session hopened).unheard signal]
    · rfl
    · rw [hsevered.requested session hopened]
      exact List.not_mem_nil

end Orderly

/-- Nothing happens after a close. Whatever went on before, closing the link of a client takes its
forwarders off and touches nobody else. From then on, whatever else goes on, no signal is forwarded
to the client, closing again changes nothing, its connection is over, what was in its table has
failed for want of a connection, no delivery arrives, the reader drops each frame that waits and no
announcement comes of it, and no step but the client's own ones touches its replies or lets anybody
see anything. As long as request numbers cannot have come back, the table had all replies that
waited. -/
theorem close_is_final (settings : ServiceSettings) (files : Playlist.FileTree)
    (clients : List ClientSettings) (steps more : List (NetworkStep η)) (index : Nat)
    (start next : NodeId) {client : LinkedClient η}
    (hclient : ((create (.create settings files) clients).run steps start).1.client? index =
      some client) :
    let before := ((create (.create settings files) clients).run steps start).1
    let closed := before.close index
    let later := (closed.run more next).1
    Closes index before closed ∧
    (∀ signal, ∀ listener ∈ later.service.collection.listeners signal,
      listener.handler ≠ .forwarder index) ∧
    later.close index = later ∧
    (steps.length < 2 ^ 32 → ∀ session ∈ client.session, ∀ (i : Nat) reply,
      client.replies[i]? = some reply → reply.status = .sent →
        session.pending[reply.request]? = some i) ∧
    ∃ rest, later.client? index = some rest ∧ rest.Over ∧
      (∀ session ∈ client.session, ∀ request (i : Nat), session.pending[request]? = some i →
        ∃ reply, rest.replies[i]? = some reply ∧ reply.request = request ∧
          reply.settlement = .result (.error .notConnected)) ∧
      (later.deliver index = fun delivery => Prod.snd <$> later.handOver index delivery) ∧
      (∀ delivery next, (later.handOver index delivery next).1 = (none, later)) ∧
      later.readOne index = Prod.snd <$> later.readNoting index ∧
      (∀ next, (later.readNoting index next).1 =
        (none, later.setClient index (rest.withQueue rest.channel.queue.tail))) ∧
      ∀ step : NetworkStep η, ¬step.IsBy index → ∀ next, ∃ after,
        (later.step step next).1.client? index = some after ∧
          after.replies = rest.replies ∧ after.events = rest.events := by
  intro before closed later
  have hbefore : before.Orderly (0 + steps.length) :=
    (Orderly.create settings files clients).run steps start
  have hlater : later.Orderly (0 + steps.length + more.length) :=
    (hbefore.close index).run more next
  obtain ⟨shut, hshut, hclosed, hfailed⟩ := hbefore.exists_closed hclient
  obtain ⟨rest, hrest, hrests⟩ := run_rests hshut hclosed more next
  refine ⟨hbefore.closes index, hlater.not_forwarder (hlater.noted_closed hrest hrests.closed),
    close_closed hrest hrests.closed, fun hfew session hopened i reply hreply hsent => ?_,
    rest, hrest, hlater.isOver hrest hrests.closed, fun session hopened request i hi => ?_,
    funext (later.deliver_eq_handOver index), handOver_closed hrest hrests.closed,
    later.readOne_eq_readNoting index, readNoting_closed hrest hrests.closed,
    fun step hstep next => ?_⟩
  · obtain ⟨drawn, -, htracks⟩ :=
      (hbefore.clients index client hclient).informed.tracks session hopened (by omega)
    exact htracks.pending_of_sent hreply (Reply.status_eq_sent_iff.mp hsent)
  · obtain ⟨reply, hreply, hrequest, hlost⟩ := hfailed session hopened request i hi
    have hsettled : reply.settlement ≠ .sent := by
      rw [hlost]
      exact Settlement.noConfusion
    obtain ⟨reply', hreply', hrequest', hsame⟩ := hrests.settled i reply hreply hsettled
    exact ⟨reply', hreply', hrequest'.trans hrequest, hsame.trans hlost⟩
  · obtain ⟨after, hafter, hidles⟩ := step_idles hrest hrests.closed hstep next
    exact ⟨after, hafter, hidles.replies, hidles.events⟩

/-! ### Two clients -/

/-- A service with two clients, one of them over a link that encodes. -/
def pair : Network Nat := create (.create {} { working := [] }) [{}, { wire := false }]

/-- The command that saves a playlist of two entries. -/
def keep (name : String) : Command :=
  Request.collectionCommand .save
    [.string name, Request.spaceArg .playlists, .collection (.node 3 .idlist [] [] [1, 2])]

/-- Both clients subscribe. The first one saves twice, and its reader comes to neither. -/
def farewell : List (NetworkStep Nat) :=
  [.act 0 ⟨.subscribe .collectionChanged 7, rfl⟩, .act 1 ⟨.subscribe .collectionChanged 8, rfl⟩,
    .read 0, .read 1, .act 0 ⟨.send (keep "a"), rfl⟩, .act 0 ⟨.send (keep "b"), rfl⟩]

/-- The reader goes on, the second client saves as well, and the first one tries to. -/
def aftermath : List (NetworkStep Nat) :=
  [.read 0, .act 1 ⟨.send (keep "c"), rfl⟩, .read 1, .act 0 ⟨.send (keep "d"), rfl⟩]

/-- Once the first client is closed its saves never happen, and only the second one is told of a
change. -/
theorem close_is_final_farewell :
    let before := (pair.run farewell 9).1
    let closed := before.close 0
    let later := (closed.run aftermath 40).1
    ∃ client, before.client? 0 = some client ∧ client.channel.queue.length = 2 ∧
      client.replies.map Reply.status = [.completed, .sent, .sent] ∧
      (before.service.collection.listeners SignalKind.collectionChanged.number).map
        Listener.handler = [.forwarder 0, .forwarder 1] ∧
      (closed.service.collection.listeners SignalKind.collectionChanged.number).map
        Listener.handler = [.forwarder 1] ∧
      later.service.store.names .playlists = ["c"] ∧
      ∃ rest, later.client? 0 = some rest ∧ rest.Over ∧
        rest.replies.map Reply.status = [.completed, .failed, .failed] ∧
        ∀ next, (later.readNoting 0 next).1 =
          (none, later.setClient 0 (rest.withQueue rest.channel.queue.tail)) := by
  have hbefore : ((pair.run farewell 9).1.client? 0).map (fun client =>
      (client.channel.queue.length, client.replies.map Reply.status)) =
        some (2, [.completed, .sent, .sent]) := by decide +kernel
  have hafter : ((((pair.run farewell 9).1.close 0).run aftermath 40).1.client? 0).map
      (fun client => client.replies.map Reply.status) =
        some [.completed, .failed, .failed] := by decide +kernel
  obtain ⟨client, hclient, hstands⟩ := Option.map_eq_some_iff.mp hbefore
  obtain ⟨-, -, -, -, rest, hrest, hover, -, -, -, -, hread, -⟩ :=
    close_is_final {} { working := [] } [{}, { wire := false }] farewell aftermath 0 9 40 hclient
  refine ⟨client, hclient, congrArg Prod.fst hstands, congrArg Prod.snd hstands,
    by decide +kernel, by decide +kernel, by decide +kernel, rest, hrest, hover, ?_, hread⟩
  have hfailed := congrArg (Option.map fun client => client.replies.map Reply.status) hrest
  exact Option.some.inj (hfailed.symm.trans hafter)

end Network

end MediaCatalog
