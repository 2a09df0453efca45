import MediaCatalog.Proofs.Client.Knowledge
import MediaCatalog.Proofs.Network.Ledger

/-!
What is sent for a call of a client. A request that passes its checks, and the first subscription to
a signal, come to one message each, and the channel decides what becomes of the call; a further
subscription sends nothing. Where the channel refuses, the session forgets that it tried.
-/

namespace MediaCatalog

variable {σ η α : Type}

/-- The message by which a session sends a command. -/
def Session.message (session : Session η) (command : Command) : Message where
  request := session.nextRequest
  object := command.object
  command := command.number
  args := command.args

/-- A call sent one message and nothing else, and came out as the channel took it. -/
structure Client.Sends [Channel σ] (client : Client σ η) (message : Message)
    (result : Except Error α × Client σ η) : Prop where
  channel : result.2.channel = (Channel.send client.channel message).2
  outcome : result.1.map (fun _ => ()) = (Channel.send client.channel message).1

/-- Nothing was noted of a call but the number of its request. -/
structure Client.Forgets (client : Client σ η) (session : Session η) (after : Client σ η) :
    Prop where
  replies : after.replies = client.replies
  events : after.events = client.events
  session : ∃ kept, after.session = some kept ∧ kept.settings = session.settings ∧
    kept.requested = session.requested ∧ kept.broadcasts = session.broadcasts ∧
    (∀ request, request ≠ session.nextRequest →
      kept.pending[request]? = session.pending[request]?) ∧
    (session.pending[session.nextRequest]? = none →
      ∀ request : UInt32, kept.pending[request]? = session.pending[request]?)

theorem Client.Forgets.refl {client : Client σ η} {session : Session η}
    (h : client.session = some session) : client.Forgets session client :=
  ⟨rfl, rfl, session, h, rfl, rfl, rfl, fun _ _ => rfl, fun _ _ => rfl⟩

/-- What a step makes of the signals that a session asked for. Only a subscription adds one, and
only the loss of the channel makes the session forget them. -/
structure ClientStep.Asks (step : ClientStep σ η) (before after : List UInt32) : Prop where
  keeps : step ≠ .disconnect → before ⊆ after
  adds : ∀ number ∈ after, number ∈ before ∨
    ∃ (signal : SignalKind) (subscriber : η), step = .subscribe signal subscriber ∧
      number = signal.number

theorem ClientStep.Asks.refl (step : ClientStep σ η) (requested : List UInt32) :
    step.Asks requested requested :=
  ⟨fun _ _ => id, fun _ => .inl⟩

namespace Client

variable [Channel σ] (client : Client σ η) (session : Session η)

theorem sendOver_of_lost (h : client.isConnected = false) (command : Command) :
    client.sendOver session command = (.error .notConnected, client) := by
  rw [sendOver, h]
  rfl

theorem request_of_lost (h : client.isConnected = false) (request : Request) (next : NodeId) :
    (client.request session request next).1 = (.error .notConnected, client) := by
  rw [Client.request, h]
  rfl

theorem subscribe_of_lost (h : client.isConnected = false) (signal : SignalKind)
    (subscriber : η) :
    client.subscribe session signal subscriber = (.error .notConnected, client) := by
  rw [Client.subscribe, h]
  rfl

/-- A message that the channel refused is forgotten. -/
theorem forgets_sendOver (hopened : client.session = some session) {command : Command}
    {cause : Error} (hrefused : (client.sendOver session command).1 = .error cause) :
    client.Forgets session (client.sendOver session command).2 := by
  rcases client.sendOver_cases session command with
    ⟨error, hsend⟩ | ⟨error, channel, hsend⟩ | ⟨channel, hsend⟩
  · rw [hsend]
    exact .refl hopened
  · rw [hsend]
    refine ⟨rfl, rfl, _, rfl, rfl, rfl, rfl, fun request hother => ?_, fun hfree request => ?_⟩
    · simp [Session.forget, Session.await, Std.TreeMap.getElem?_erase,
        Std.TreeMap.getElem?_insert, hother.symm]
    · rw [Session.forget, Session.await, Std.TreeMap.getElem?_erase, Std.TreeMap.getElem?_insert]
      simp only [Std.compare_eq_iff_eq]
      split
      · next hsame => rw [← hsame, hfree]
      · rfl
  · rw [hsend] at hrefused
    cases hrefused

section Connected

variable {client} (h : client.isConnected = true)
include h

theorem request_of_refused {request : Request} {cause : Error}
    (hcheck : request.check = .error cause) (next : NodeId) :
    (client.request session request next).1 = (.error cause, client) := by
  rw [Client.request, h, hcheck]
  rfl

theorem request_of_checked {request : Request} (hcheck : request.check = .ok ()) (next : NodeId) :
    (client.request session request next).1 =
      client.sendOver session (request.command next).1 := by
  rw [Client.request, h, hcheck]
  rfl

theorem sends_sendOver (command : Command) :
    client.Sends (session.message command) (client.sendOver session command) := by
  have hmessage :
      (⟨session.nextRequest, command.object, command.number, command.args⟩ : Message) =
        session.message command := rfl
  rw [sendOver, if_neg (by simp [h])]
  dsimp only
  rw [hmessage]
  split
  · next channel hsend => exact ⟨by rw [hsend], by rw [hsend]; rfl⟩
  · next error channel hsend => exact ⟨by rw [hsend], by rw [hsend]; rfl⟩

section Subscribing

variable {session} {signal : SignalKind} (subscriber : η)

/-- What an accepted request to forward a signal makes of the subscription. -/
theorem subscribe_of_new (hnew : signal.number ∉ session.requested) :
    client.subscribe session signal subscriber =
      match client.sendOver session (Ledger.forwarding signal) with
      | (.error error, client) => (.error error, client)
      | (.ok _, client) =>
        match client.session with
        | none => (.error .notConnected, client)
        | some session =>
          let asked := { session with requested := signal.number :: session.requested }
          let (subscription, client) := client.attach asked signal.number subscriber
          (.ok subscription, client) := by
  rw [Client.subscribe, h, if_neg hnew]
  rfl

/-- The first subscription to a signal asks the server to forward it. -/
theorem sends_subscribe (hnew : signal.number ∉ session.requested) :
    client.Sends (session.message (Ledger.forwarding signal))
      (client.subscribe session signal subscriber) := by
  have hsends := sends_sendOver session h (Ledger.forwarding signal)
  rw [subscribe_of_new h subscriber hnew]
  rcases client.sendOver_cases session (Ledger.forwarding signal) with
    ⟨error, hsend⟩ | ⟨error, channel, hsend⟩ | ⟨channel, hsend⟩
  · rw [hsend] at hsends ⊢
    exact ⟨hsends.channel, hsends.outcome⟩
  · rw [hsend] at hsends ⊢
    exact ⟨hsends.channel, hsends.outcome⟩
  · rw [hsend] at hsends ⊢
    exact ⟨hsends.channel, hsends.outcome⟩

/-- A subscription to a signal that the server was asked for sends nothing. -/
theorem subscribe_of_asked (hasked : signal.number ∈ session.requested) :
    ∃ subscription, (client.subscribe session signal subscriber).1 = .ok subscription ∧
      (client.subscribe session signal subscriber).2.channel = client.channel := by
  rw [Client.subscribe, h, if_pos hasked]
  exact ⟨_, rfl, rfl⟩

theorem forgets_subscribe (hopened : client.session = some session) {cause : Error}
    (hrefused : (client.subscribe session signal subscriber).1 = .error cause) :
    client.Forgets session (client.subscribe session signal subscriber).2 := by
  by_cases hasked : signal.number ∈ session.requested
  · obtain ⟨subscription, hok, -⟩ := subscribe_of_asked h subscriber hasked
    rw [hok] at hrefused
    cases hrefused
  · have hforgets (cause : Error)
        (h : (client.sendOver session (Ledger.forwarding signal)).1 = .error cause) :=
      client.forgets_sendOver session hopened h
    rw [subscribe_of_new h subscriber hasked] at hrefused ⊢
    rcases client.sendOver_cases session (Ledger.forwarding signal) with
      ⟨error, hsend⟩ | ⟨error, channel, hsend⟩ | ⟨channel, hsend⟩
    · rw [hsend] at hforgets ⊢
      exact hforgets _ rfl
    · rw [hsend] at hforgets ⊢
      exact hforgets _ rfl
    · rw [hsend] at hrefused
      cases hrefused

/-- A subscription that came about is to a signal that the server was asked for. -/
theorem requested_of_subscribe {subscription : Subscription}
    (hok : (client.subscribe session signal subscriber).1 = .ok subscription) :
    ∃ asked, (client.subscribe session signal subscriber).2.session = some asked ∧
      signal.number ∈ asked.requested := by
  by_cases hasked : signal.number ∈ session.requested
  · rw [Client.subscribe, h, if_pos hasked]
    exact ⟨_, rfl, hasked⟩
  · rw [subscribe_of_new h subscriber hasked] at hok ⊢
    rcases client.sendOver_cases session (Ledger.forwarding signal) with
      ⟨error, hsend⟩ | ⟨error, channel, hsend⟩ | ⟨channel, hsend⟩
    · rw [hsend] at hok
      cases hok
    · rw [hsend] at hok
      cases hok
    · rw [hsend]
      exact ⟨_, rfl, List.mem_cons_self⟩

end Subscribing

end Connected

/-! ### Signals that were asked for -/

section Asking

variable {client session} (hopened : client.session = some session)
include hopened

theorem requested_of_sendOver (command : Command) :
    ∃ kept, (client.sendOver session command).2.session = some kept ∧
      kept.requested = session.requested := by
  rcases client.sendOver_cases session command with
    ⟨error, hsend⟩ | ⟨error, channel, hsend⟩ | ⟨channel, hsend⟩
  · rw [hsend]
    exact ⟨session, hopened, rfl⟩
  · rw [hsend]
    exact ⟨_, rfl, rfl⟩
  · rw [hsend]
    exact ⟨_, rfl, rfl⟩

theorem asks_subscribe (signal : SignalKind) (subscriber : η) :
    ∃ kept, (client.subscribe session signal subscriber).2.session = some kept ∧
      (ClientStep.subscribe signal subscriber : ClientStep σ η).Asks session.requested
        kept.requested := by
  rw [Client.subscribe]
  split
  · exact ⟨session, hopened, .refl _ _⟩
  · dsimp only
    split
    · exact ⟨_, rfl, .refl _ _⟩
    · obtain ⟨kept, hkept, hsame⟩ :=
        requested_of_sendOver hopened (Ledger.forwarding signal)
      rw [Ledger.forwarding] at hkept
      split
      · next error after hsend =>
        rw [hsend] at hkept
        exact ⟨kept, hkept, hsame ▸ .refl _ _⟩
      · next index after hsend =>
        rw [hsend] at hkept
        dsimp only at hkept
        rw [hkept]
        refine ⟨_, rfl, fun _ number hnumber => ?_, fun number hnumber => ?_⟩
        · exact List.mem_cons_of_mem _ (hsame ▸ hnumber)
        · rcases List.mem_cons.mp hnumber with rfl | hold
          · exact .inr ⟨signal, subscriber, rfl, rfl⟩
          · exact .inl (hsame ▸ hold)

theorem asks_step (step : ClientStep σ η) :
    ∃ kept, (client.step step).session = some kept ∧
      step.Asks session.requested kept.requested := by
  have hsame : ∃ kept, client.session = some kept ∧
      step.Asks session.requested kept.requested := ⟨session, hopened, .refl _ _⟩
  cases step with
  | send command =>
      obtain ⟨kept, hkept, hrequested⟩ := requested_of_sendOver hopened command
      rw [Client.step, hopened]
      exact ⟨kept, hkept, hrequested ▸ .refl _ _⟩
  | subscribe signal subscriber =>
      rw [Client.step, hopened]
      exact asks_subscribe hopened signal subscriber
  | unsubscribe subscription =>
      rw [Client.step, unsubscribe, hopened]
      dsimp only
      cases session.broadcasts.unsubscribe subscription with
      | error error => exact hsame
      | ok broadcasts => exact ⟨_, rfl, .refl _ _⟩
  | receive delivery =>
      rw [Client.step, receive, hopened]
      dsimp only
      split
      · split
        · exact hsame
        · rw [complete_session]
          exact ⟨_, rfl, .refl _ _⟩
      · exact ⟨session, rfl, .refl _ _⟩
  | onComplete index =>
      rw [Client.step]
      cases client.reply? index with
      | none => exact hsame
      | some reply =>
          dsimp only
          cases honComplete : client.onComplete index reply with
          | error error => exact hsame
          | ok after =>
              obtain ⟨settled, -, hafter⟩ := exists_of_bind_ok honComplete
              obtain rfl := Except.ok.inj hafter
              exact hsame
  | cancel index =>
      rw [Client.step, cancel]
      cases client.reply? index with
      | none => exact hsame
      | some reply =>
          dsimp only
          split
          · exact ⟨_, congrArg (Option.map _) hopened, .refl _ _⟩
          · exact hsame
  | disconnect =>
      rw [Client.step, disconnected_session, hopened]
      exact ⟨_, rfl, fun h => absurd rfl h, fun _ hnumber => absurd hnumber List.not_mem_nil⟩
  | channel state => exact hsame

/-- What a session asked for stays asked for until the channel is lost. -/
theorem requested_of_steps {steps : List (ClientStep σ η)}
    (hsteps : ∀ step ∈ steps, step ≠ .disconnect) :
    ∃ kept, (steps.foldl step client).session = some kept ∧
      session.requested ⊆ kept.requested := by
  induction steps generalizing client session with
  | nil => exact ⟨session, hopened, fun _ => id⟩
  | cons step steps ih =>
      obtain ⟨kept, hkept, hasks⟩ := asks_step hopened step
      obtain ⟨last, hlast, hlater⟩ :=
        ih hkept fun later hlater => hsteps later (List.mem_cons_of_mem _ hlater)
      have hkeeps := hasks.keeps (hsteps step List.mem_cons_self)
      exact ⟨last, hlast, fun signal hsignal => hlater (hkeeps hsignal)⟩

end Asking

end Client

end MediaCatalog
