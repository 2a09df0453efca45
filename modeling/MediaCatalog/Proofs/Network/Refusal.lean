import MediaCatalog.Proofs.Client.Sending
import MediaCatalog.Proofs.Network.Orderly

/-!
Calls that are refused. A call of a client fails at once when its link is closed, when something is
wrong with its arguments, and when the queue of the link is full, in this order. Whatever the client
noted beforehand is taken back, the link stays as it is, and nobody else on the network is touched.
A subscription that was refused is therefore a first one again when it is tried again.
-/

namespace MediaCatalog

variable {σ η : Type}

/-! ### Calls -/

/-- A check that is made after another one. -/
theorem error_of_both {first second : Except Error Unit} {cause : Error}
    (h : (do first; second) = .error cause) : first = .error cause ∨ second = .error cause := by
  cases first with
  | error reason => exact .inl h
  | ok => exact .inr h

/-- Only arguments are checked. -/
theorem Request.invalidArgument_of_check {request : Request} {cause : Error}
    (h : request.check = .error cause) : ∃ reason, cause = .invalidArgument reason := by
  have hname {name what : String} (h : requireName name what = .error cause) :
      ∃ reason, cause = .invalidArgument reason := by
    rw [requireName] at h
    split at h
    · exact ⟨_, (Except.error.inj h).symm⟩
    · cases h
  have hspace {space : Namespace} (h : space.ensureWritable = .error cause) :
      ∃ reason, cause = .invalidArgument reason := by
    cases space with
    | all => exact ⟨_, (Except.error.inj h).symm⟩
    | collections => cases h
    | playlists => cases h
  have htest {wrong : Prop} [Decidable wrong] {reason : String}
      (h : (if wrong then .error (.invalidArgument reason) else .ok () : Except Error Unit) =
        .error cause) : ∃ reason, cause = .invalidArgument reason := by
    split at h
    · exact ⟨_, (Except.error.inj h).symm⟩
    · cases h
  cases request with
  | get name space => exact hname h
  | importPlaylist path => exact hname h
  | save collection name space => exact (error_of_both h).elim hname hspace
  | remove name space => exact (error_of_both h).elim hname hspace
  | rename name newName space =>
      exact (error_of_both h).elim hname fun h => (error_of_both h).elim hname hspace
  | find id space => exact htest h
  | query collection spec => exact htest h
  | queryInfos collection order start length properties group => exact htest h
  | sync => cases h
  | list space => cases h
  | queryIds collection order start length => cases h

/-- A call by which a client sends a message, or may. -/
inductive ClientCall (η : Type) where
  | ask (request : Request)
  | send (command : Command)
  | subscribe (signal : SignalKind) (subscriber : η)

namespace ClientCall

/-- What is wrong with a call by itself, if anything is. -/
def check : ClientCall η → Except Error Unit
  | ask request => request.check
  | send _ | subscribe _ _ => .ok ()

/-- The command that a call sends. There is none for a signal that was asked for already. -/
def command? (session : Session η) : ClientCall η → Build (Option Command)
  | ask request => some <$> request.command
  | send command => return some command
  | subscribe signal _ =>
    return if signal.number ∈ session.requested then none else some (Ledger.forwarding signal)

/-- A call gives something in return, but here it only matters whether it failed. -/
def told {α : Type} (result : Except Error α × Client σ η) : Except Error Unit × Client σ η :=
  (result.1.map fun _ => (), result.2)

/-- Make a call. -/
def make [Channel σ] (client : Client σ η) (session : Session η) :
    ClientCall η → Build (Except Error Unit × Client σ η)
  | ask request => told <$> client.request session request
  | send command => return told (client.sendOver session command)
  | subscribe signal subscriber => return told (client.subscribe session signal subscriber)

/-- The step of the network in which a client makes a call. -/
def step (index : Nat) : ClientCall η → NetworkStep η
  | ask request => .request index request
  | send command => .act index ⟨.send command, rfl⟩
  | subscribe signal subscriber => .act index ⟨.subscribe signal subscriber, rfl⟩

theorem error_of_told {α : Type} {result : Except Error α × Client σ η} {cause : Error}
    (h : (told result).1 = .error cause) : result.1 = .error cause := by
  obtain ⟨outcome, client⟩ := result
  cases outcome with
  | error reason => exact congrArg _ (Except.error.inj h)
  | ok value => cases h

theorem sends_told {α : Type} [Channel σ] {client : Client σ η} {message : Message}
    {result : Except Error α × Client σ η} (h : client.Sends message result) :
    client.Sends message (told result) := by
  obtain ⟨outcome, after⟩ := result
  refine ⟨h.channel, ?_⟩
  rw [← h.outcome]
  cases outcome <;> rfl

/-- A call that is wrong by itself has a wrong argument. -/
theorem invalidArgument_of_check {call : ClientCall η} {cause : Error}
    (h : call.check = .error cause) : ∃ reason, cause = .invalidArgument reason := by
  cases call with
  | ask request => exact request.invalidArgument_of_check h
  | send command => cases h
  | subscribe signal subscriber => cases h

section Making

variable [Channel σ] {client : Client σ η} (session : Session η) (call : ClientCall η)
  (next : NodeId)

theorem make_lost (h : client.isConnected = false) :
    (call.make client session next).1 = (.error .notConnected, client) := by
  cases call with
  | ask request =>
      show told (client.request session request next).1 = _
      rw [client.request_of_lost session h]
      rfl
  | send command =>
      show told (client.sendOver session command) = _
      rw [client.sendOver_of_lost session h]
      rfl
  | subscribe signal subscriber =>
      show told (client.subscribe session signal subscriber) = _
      rw [client.subscribe_of_lost session h]
      rfl

section Connected

variable {session call} (h : client.isConnected = true)
include h

theorem make_wrong {cause : Error} (hcheck : call.check = .error cause) :
    (call.make client session next).1 = (.error cause, client) := by
  cases call with
  | ask request =>
      show told (client.request session request next).1 = _
      rw [Client.request_of_refused session h hcheck]
      rfl
  | send command => cases hcheck
  | subscribe signal subscriber => cases hcheck

/-- A request that passes its checks is sent. -/
theorem make_ask {request : Request} (hcheck : request.check = .ok ()) :
    ((ask request).make client session next).1 =
      told (client.sendOver session (request.command next).1) :=
  congrArg told (Client.request_of_checked session h hcheck next)

/-- A call for which nothing has to be sent cannot fail. -/
theorem make_silent (hnone : (call.command? session next).1 = none) :
    (call.make client session next).1.1 = .ok () := by
  cases call with
  | ask request => cases hnone
  | send command => cases hnone
  | subscribe signal subscriber =>
      have hasked : signal.number ∈ session.requested := by
        by_contra hnew
        rw [command?, if_neg hnew] at hnone
        cases hnone
      obtain ⟨subscription, hok, -⟩ := Client.subscribe_of_asked h subscriber hasked
      show (told (client.subscribe session signal subscriber)).1 = _
      rw [told, hok]
      rfl

theorem make_sends (hcheck : call.check = .ok ()) {command : Command}
    (hcommand : (call.command? session next).1 = some command) :
    client.Sends (session.message command) (call.make client session next).1 := by
  cases call with
  | ask request =>
      obtain rfl : (request.command next).1 = command := Option.some.inj hcommand
      rw [make_ask next h hcheck]
      exact sends_told (Client.sends_sendOver session h _)
  | send command =>
      obtain rfl := Option.some.inj hcommand
      exact sends_told (Client.sends_sendOver session h _)
  | subscribe signal subscriber =>
      have hnew : signal.number ∉ session.requested := by
        intro hasked
        rw [command?, if_pos hasked] at hcommand
        cases hcommand
      rw [command?, if_neg hnew] at hcommand
      obtain rfl : Ledger.forwarding signal = command := Option.some.inj hcommand
      exact sends_told (Client.sends_subscribe h subscriber hnew)

end Connected

/-- A call that failed is forgotten. -/
theorem make_forgets (hopened : client.session = some session) {cause : Error}
    (hfailed : (call.make client session next).1.1 = .error cause) :
    client.Forgets session (call.make client session next).1.2 := by
  cases hconnected : client.isConnected with
  | false =>
      rw [call.make_lost session next hconnected]
      exact .refl hopened
  | true =>
      cases call with
      | ask request =>
          cases hcheck : (ask request : ClientCall η).check with
          | error reason =>
              rw [make_wrong next hconnected hcheck]
              exact .refl hopened
          | ok =>
              rw [make_ask next hconnected hcheck] at hfailed ⊢
              exact client.forgets_sendOver session hopened (error_of_told hfailed)
      | send command => exact client.forgets_sendOver session hopened (error_of_told hfailed)
      | subscribe signal subscriber =>
          exact Client.forgets_subscribe hconnected subscriber hopened (error_of_told hfailed)

end Making

end ClientCall

/-! ### Links -/

namespace Link

/-- As many messages wait as may wait. -/
def Full (link : Link) : Prop := max link.settings.capacity 1 ≤ link.queue.length

instance (link : Link) : Decidable link.Full := inferInstanceAs (Decidable (_ ≤ _))

variable {link : Link}

theorem send_of_full (hconnected : link.connected = true) (hfull : link.Full) (message : Message) :
    Channel.send link message = (.error .queueFull, link) := by
  simp only [Channel.send, hconnected, Bool.not_true, Bool.false_eq_true, if_false]
  exact if_pos hfull

theorem send_of_room (hconnected : link.connected = true) (hroom : ¬ link.Full)
    (message : Message) : Channel.send link message =
      (.ok (),
        { link with queue := link.queue ++ [link.frame message], sent := link.sent + 1 }) := by
  simp only [Channel.send, hconnected, Bool.not_true, Bool.false_eq_true, if_false]
  exact if_neg hroom

/-- A link that refuses a message is as it was. -/
theorem send_of_error {message : Message} {cause : Error}
    (h : (Channel.send link message).1 = .error cause) : (Channel.send link message).2 = link := by
  cases hconnected : link.connected with
  | false => simp only [Channel.send, hconnected, Bool.not_false, if_true]
  | true =>
      by_cases hfull : link.Full
      · rw [send_of_full hconnected hfull]
      · rw [send_of_room hconnected hfull] at h
        cases h

end Link

/-! ### Signals that were not asked for -/

/-- The session of a client, if there is one, did not ask for a signal. -/
def Client.Unasked (signal : SignalKind) (client : Client σ η) : Prop :=
  ∀ session, client.session = some session → signal.number ∉ session.requested

theorem SignalKind.number_injective : Function.Injective SignalKind.number := by
  intro first second _
  cases first
  cases second
  rfl

theorem Client.Unasked.withChannel {signal : SignalKind} {client : Client σ η}
    (h : client.Unasked signal) (channel : σ) : { client with channel }.Unasked signal := h

theorem Client.unasked_dropSession (client : Client σ η) (signal : SignalKind) :
    client.dropSession.Unasked signal := by
  rintro session ⟨⟩

/-- Only a subscription to a signal makes a session ask for it. -/
theorem Client.Unasked.step [Channel σ] {signal : SignalKind} {client : Client σ η}
    (h : client.Unasked signal) (step : ClientStep σ η)
    (hstep : ∀ subscriber, step ≠ .subscribe signal subscriber) :
    (client.step step).Unasked signal := by
  intro session hsession hasked
  cases hopened : client.session with
  | none =>
      rw [Client.session_step_of_none hopened] at hsession
      cases hsession
  | some before =>
      obtain ⟨kept, hkept, hasks⟩ := Client.asks_step hopened step
      obtain rfl := Option.some.inj (hkept.symm.trans hsession)
      rcases hasks.adds _ hasked with hold | ⟨other, subscriber, hsubscribe, hnumber⟩
      · exact h before hopened hold
      · obtain rfl := SignalKind.number_injective hnumber
        exact hstep subscriber hsubscribe

namespace Network

variable {network network' : Network η} {index : Nat} {signal : SignalKind}

/-- The client at a place, if there is one, did not ask for a signal. -/
def Unasked (network : Network η) (index : Nat) (signal : SignalKind) : Prop :=
  ∀ client, network.client? index = some client → client.Unasked signal

namespace Unasked

variable (h : network.Unasked index signal)
include h

theorem setClient {place : Nat} {before after : LinkedClient η}
    (hbefore : network.client? place = some before)
    (hafter : before.Unasked signal → after.Unasked signal) (service : Service) :
    ({ network with service }.setClient place after).Unasked index signal := by
  intro client hclient
  rw [client?_setClient] at hclient
  split at hclient
  · next hplace =>
    subst hplace
    obtain ⟨_, -, rfl⟩ := Option.map_eq_some_iff.mp hclient
    exact hafter (h before hbefore)
  · exact h client hclient

theorem act {place : Nat} {deed : ClientStep Link η}
    (hdeed : place = index → ∀ subscriber, deed ≠ .subscribe signal subscriber) :
    (network.act place deed).Unasked index signal := by
  rw [Network.act]
  cases hplace : network.client? place with
  | none => exact h
  | some client =>
      by_cases hsame : place = index
      · exact h.setClient hplace (fun hunasked => hunasked.step deed (hdeed hsame)) _
      · intro other hother
        rw [client?_setClient, if_neg hsame] at hother
        exact h other hother

theorem change (hchange : network.Change network') : network'.Unasked index signal := by
  cases hchange with
  | serve hserves => exact h
  | hear hclient hconnected delivery =>
      refine h.setClient hclient (fun hunasked => ?_) _
      exact hunasked.step (.receive delivery) fun _ h => by cases h
  | forward hclient hconnected place =>
      exact h.setClient hclient (fun hunasked => hunasked.withChannel _) _
  | dequeue hclient => exact h.setClient hclient (fun hunasked => hunasked.withChannel _) _
  | post place message =>
      rw [Network.post]
      cases hplace : network.client? place with
      | none => exact h
      | some client => exact h.setClient hplace (fun hunasked => hunasked.withChannel _) _
  | close place =>
      rw [Network.close]
      cases hplace : network.client? place with
      | none => exact h
      | some client =>
          dsimp only
          split
          · exact h
          · refine h.setClient hplace (fun hunasked => ?_) _
            exact (hunasked.withChannel _).step .disconnect fun _ h => by cases h
  | drop place =>
      rw [Network.drop]
      cases hplace : network.client? place with
      | none => exact h
      | some client => exact h.setClient hplace (fun _ => Client.unasked_dropSession _ signal) _
  | join settings =>
      intro client hclient
      rcases getElem?_append_singleton.mp hclient with hold | ⟨-, rfl⟩
      · exact h client hold
      · rintro session ⟨⟩
        exact List.not_mem_nil

theorem becomes (hbecomes : network.Becomes network') : network'.Unasked index signal := by
  induction hbecomes with
  | refl => exact h
  | tail _ hchange ih => exact ih.change hchange

theorem step {step : NetworkStep η}
    (hstep : ∀ subscriber, step ≠ (ClientCall.subscribe signal subscriber).step index)
    (next : NodeId) : (network.step step next).1.Unasked index signal := by
  have hothers (hnobody : ∀ place, ¬step.IsBy place) :
      (network.step step next).1.Unasked index signal := by
    rcases network.step_cases step next with ⟨place, _, -, hby, -⟩ | hbecomes
    · exact absurd hby (hnobody place)
    · exact h.becomes hbecomes
  cases step with
  | act place deed =>
      obtain ⟨deed, hown⟩ := deed
      refine h.act fun hplace subscriber hdeed => hstep subscriber ?_
      subst hplace hdeed
      rfl
  | request place request =>
      rcases network.ask_cases place request next with hsame | ⟨command, hact⟩
      · show (network.ask place request next).1.Unasked index signal
        rw [hsame]
        exact h
      · show (network.ask place request next).1.Unasked index signal
        rw [hact]
        exact h.act fun _ _ h => by cases h
  | _ => exact hothers fun _ => id

/-- Until the client subscribes to the signal it is not asked for. -/
theorem run {steps : List (NetworkStep η)}
    (hsteps : ∀ subscriber, (ClientCall.subscribe signal subscriber).step index ∉ steps)
    (next : NodeId) : (network.run steps next).1.Unasked index signal := by
  induction steps generalizing network next with
  | nil => exact h
  | cons step steps ih =>
      rw [run_cons]
      refine ih (h.step (fun subscriber hsame => hsteps subscriber ?_) next)
        (fun subscriber hmem => hsteps subscriber (List.mem_cons_of_mem _ hmem)) _
      exact hsame ▸ List.mem_cons_self

end Unasked

end Network

/-! ### Refusals -/

namespace ClientCall

variable (call : ClientCall η) (client : LinkedClient η) (session : Session η) (next : NodeId)

/-- How a call comes out. A closed link comes before a wrong argument, and this before a full queue,
which only matters if there is something to send. -/
def verdict (link : Link) : Except Error Unit :=
  if !link.connected then .error .notConnected
  else
    match call.check with
    | .error cause => .error cause
    | .ok () =>
      if (call.command? session next).1.isSome ∧ link.Full then .error .queueFull else .ok ()

/-- The link, the arguments and the queue are all that is looked at. -/
theorem verdict_error {session : Session η} {next : NodeId} {link : Link} {cause : Error}
    (h : call.verdict session next link = .error cause) :
    cause = .notConnected ∨ (∃ reason, cause = .invalidArgument reason) ∨ cause = .queueFull := by
  rw [verdict] at h
  split at h
  · exact .inl (Except.error.inj h).symm
  · split at h
    · next reason hcheck => exact .inr (.inl (invalidArgument_of_check (hcheck.trans h)))
    · split at h
      · exact .inr (.inr (Except.error.inj h).symm)
      · cases h

/-- A call of a client either sends nothing, and leaves the link as it is, or it comes out as the
link takes its message. -/
theorem make_cases :
    ((call.make client session next).1.1 = call.verdict session next client.channel) ∧
      ((∃ cause, (call.make client session next).1.1 = .error cause) →
        (call.make client session next).1.2.channel = client.channel) := by
  cases hconnected : client.isConnected with
  | false =>
      have hclosed : client.channel.connected = false := hconnected
      rw [call.make_lost session next hconnected, verdict, hclosed]
      exact ⟨rfl, fun _ => rfl⟩
  | true =>
      have hopen : client.channel.connected = true := hconnected
      rw [verdict, hopen, if_neg (by decide)]
      cases hcheck : call.check with
      | error cause =>
          rw [make_wrong next hconnected hcheck]
          exact ⟨rfl, fun _ => rfl⟩
      | ok =>
          cases hcommand : (call.command? session next).1 with
          | none =>
              rw [make_silent next hconnected hcommand]
              refine ⟨(if_neg fun h => Bool.false_ne_true h.1).symm, ?_⟩
              rintro ⟨cause, hfailed⟩
              cases hfailed
          | some command =>
              obtain ⟨hchannel, houtcome⟩ := make_sends next hconnected hcheck hcommand
              have hsame : (call.make client session next).1.1 =
                  (Channel.send client.channel (session.message command)).1 := by
                rw [← houtcome]
                cases (call.make client session next).1.1 <;> rfl
              rw [hsame, hchannel]
              refine ⟨?_, fun ⟨cause, hrefused⟩ => Link.send_of_error hrefused⟩
              by_cases hfull : client.channel.Full
              · rw [Link.send_of_full hopen hfull]
                exact (if_pos ⟨rfl, hfull⟩).symm
              · rw [Link.send_of_room hopen hfull]
                exact (if_neg fun h => hfull h.2).symm

variable {client session}

/-- A step in which a client makes a call replaces this client. -/
theorem step_eq {network : Network η} {index : Nat} (hclient : network.client? index = some client)
    (hopened : client.session = some session) : (network.step (call.step index) next).1 =
      network.setClient index (call.make client session next).1.2 := by
  cases call with
  | ask request =>
      show (network.ask index request next).1 = _
      simp only [Network.ask, hclient, hopened]
      rfl
  | send command =>
      show network.act index (.send command) = _
      simp only [Network.act, hclient, Client.step, hopened]
      rfl
  | subscribe signal subscriber =>
      show network.act index (.subscribe signal subscriber) = _
      simp only [Network.act, hclient, Client.step, hopened]
      rfl

end ClientCall

namespace Network

/-- What a call of a client that failed makes of the network: nothing but the next number of the
session. Only a reply that waits under the number that was drawn could be forgotten. -/
structure Unmarked (network : Network η) (index : Nat) (client : LinkedClient η)
    (session kept : Session η) (after : Network η) : Prop where
  service : after.service = network.service
  clients : after.clients = network.clients.set index { client with session := some kept }
  settings : kept.settings = session.settings
  requested : kept.requested = session.requested
  broadcasts : kept.broadcasts = session.broadcasts
  pending : ∀ request : UInt32,
    request ≠ session.nextRequest ∨ session.pending[session.nextRequest]? = none →
      kept.pending[request]? = session.pending[request]?

theorem unmarked_of_failed {network : Network η} {index : Nat} {client : LinkedClient η}
    {session : Session η} (hclient : network.client? index = some client)
    (hopened : client.session = some session) {call : ClientCall η} {next : NodeId} {cause : Error}
    (hfailed : (call.make client session next).1.1 = .error cause) :
    ∃ kept, network.Unmarked index client session kept
      (network.step (call.step index) next).1 := by
  have hchannel := (call.make_cases client session next).2 ⟨cause, hfailed⟩
  obtain ⟨hreplies, hevents, kept, hkept, hsettings, hrequested, hbroadcasts, hothers, hfree⟩ :=
    call.make_forgets session next hopened hfailed
  have hmade : (call.make client session next).1.2 = { client with session := some kept } := by
    generalize (call.make client session next).1.2 = made at hchannel hreplies hevents hkept
    obtain ⟨channel, session', replies, events⟩ := made
    cases hchannel
    cases hkept
    cases hreplies
    cases hevents
    rfl
  rw [call.step_eq next hclient hopened, hmade]
  exact ⟨kept, rfl, rfl, hsettings, hrequested, hbroadcasts,
    fun request hrequest => hrequest.elim (hothers request) fun hnone => hfree hnone request⟩

/-- A subscription that was refused for want of room was the first one to its signal. -/
theorem new_of_queueFull {client : LinkedClient η} {session : Session η} {signal : SignalKind}
    {subscriber : η} {next : NodeId}
    (hfull : ((ClientCall.subscribe signal subscriber).make client session next).1.1 =
      .error .queueFull) : signal.number ∉ session.requested := by
  intro hasked
  cases hconnected : client.isConnected with
  | false =>
      rw [ClientCall.make_lost _ _ _ hconnected] at hfull
      cases hfull
  | true =>
      have hnone : ((ClientCall.subscribe signal subscriber).command? session next).1 = none :=
        if_pos hasked
      rw [ClientCall.make_silent next hconnected hnone] at hfull
      cases hfull

/-- A call that fails leaves no trace, and a subscription that was refused for want of room asks the
server again when it is tried again. -/
theorem failed_call_leaves_no_trace (settings : ServiceSettings) (files : Playlist.FileTree)
    (clients : List ClientSettings) (steps : List (NetworkStep η)) (start next : NodeId)
    {index : Nat} {client : LinkedClient η} {session : Session η}
    (hclient : ((create (.create settings files) clients).run steps start).1.client? index =
      some client) (hopened : client.session = some session) (call : ClientCall η) :
    let network := ((create (.create settings files) clients).run steps start).1
    let outcome := (call.make client session next).1.1
    let after := (network.step (call.step index) next).1
    outcome = call.verdict session next client.channel ∧
      (∀ cause, outcome = .error cause →
        (cause = .notConnected ∨ (∃ reason, cause = .invalidArgument reason) ∨
          cause = .queueFull) ∧
        ∃ kept, network.Unmarked index client session kept after ∧
          (steps.length < 2 ^ 32 →
            ∀ request : UInt32, kept.pending[request]? = session.pending[request]?)) ∧
      ∀ signal subscriber, call = .subscribe signal subscriber → outcome = .error .queueFull →
        ∀ later again, (∀ other, (ClientCall.subscribe signal other).step index ∉ later) →
          ∀ retrying reopened, (after.run later again).1.client? index = some retrying →
            retrying.session = some reopened → retrying.channel.connected = true → ∀ other,
              retrying.Sends (reopened.message (Ledger.forwarding signal))
                (retrying.subscribe reopened signal other) := by
  intro network outcome after
  have horderly := (Orderly.create settings files clients).run steps start
  have houtcome : outcome = call.verdict session next client.channel :=
    (call.make_cases client session next).1
  refine ⟨houtcome, fun cause hfailed => ?_, ?_⟩
  · obtain ⟨kept, hunmarked⟩ := unmarked_of_failed hclient hopened hfailed
    refine ⟨call.verdict_error (houtcome.symm.trans hfailed), kept, hunmarked,
      fun hlength request => hunmarked.pending request (.inr ?_)⟩
    obtain ⟨drawn, hdrawn, htracks⟩ :=
      (horderly.clients index client hclient).informed.tracks session hopened (by omega)
    exact htracks.pending_nextRequest (by omega)
  · rintro signal subscriber rfl hfull later again hlater retrying reopened hretrying hreopened
      hconnected other
    obtain ⟨kept, hunmarked⟩ := unmarked_of_failed hclient hopened hfull
    have hunasked : after.Unasked index signal := by
      intro found hfound
      have hset : after.client? index = (network.setClient index _).client? index :=
        congrArg (·[index]?) hunmarked.clients
      rw [hset, client?_setClient, if_pos rfl, hclient] at hfound
      obtain rfl := Option.some.inj hfound
      rintro session' ⟨⟩
      rw [hunmarked.requested]
      exact new_of_queueFull hfull
    have hnew := hunasked.run hlater again retrying hretrying reopened hreopened
    have hisConnected : retrying.isConnected = true := hconnected
    exact Client.sends_subscribe hisConnected other hnew

/-- A client whose link takes one message at a time, which has one on the way. -/
def brimful : Network Nat :=
  ((create (.create {} { working := [] }) [{ capacity := 1 }]).run [.request 0 .sync] 9).1

/-- It cannot subscribe until its reader has taken the message. -/
theorem failed_call_leaves_no_trace_brimful :
    let call : ClientCall Nat := .subscribe .collectionChanged 7
    let refused := (brimful.step (call.step 0) 9).1
    ∃ client session, brimful.client? 0 = some client ∧ client.session = some session ∧
      (call.make client session 9).1.1 = .error .queueFull ∧ refused.service = brimful.service ∧
      ∃ retrying reopened, (refused.run [.read 0] 9).1.client? 0 = some retrying ∧
        retrying.session = some reopened ∧ retrying.channel.connected = true ∧
        retrying.Sends (reopened.message (Ledger.forwarding .collectionChanged))
          (retrying.subscribe reopened .collectionChanged 8) := by
  intro call refused
  have hbefore : ((brimful.client? 0).bind fun client => client.session.map fun session =>
      (call.make client session 9).1.1 matches .error .queueFull) = some true := by decide +kernel
  have hafter : (((refused.run [.read 0] 9).1.client? 0).bind fun client =>
      client.session.map fun _ => client.channel.connected) = some true := by decide +kernel
  obtain ⟨client, hclient, hopened⟩ := Option.bind_eq_some_iff.mp hbefore
  obtain ⟨session, hopened, hmade⟩ := Option.map_eq_some_iff.mp hopened
  obtain ⟨retrying, hretrying, hreopened⟩ := Option.bind_eq_some_iff.mp hafter
  obtain ⟨reopened, hreopened, hconnected⟩ := Option.map_eq_some_iff.mp hreopened
  have hfull : (call.make client session 9).1.1 = .error .queueFull := by
    split at hmade
    · assumption
    · cases hmade
  obtain ⟨-, hrefuses, hretries⟩ := failed_call_leaves_no_trace {} { working := [] }
    [{ capacity := 1 }] [.request 0 .sync] 9 9 hclient hopened call
  obtain ⟨-, kept, hunmarked, -⟩ := hrefuses _ hfull
  have hlater (other : Nat) :
      (ClientCall.subscribe .collectionChanged other).step 0 ∉ [NetworkStep.read 0] := by
    intro hmem
    cases List.mem_singleton.mp hmem
  exact ⟨client, session, hclient, hopened, hfull, hunmarked.service, retrying, reopened, hretrying,
    hreopened, hconnected, hretries _ _ rfl hfull [.read 0] 9 hlater retrying reopened hretrying
      hreopened hconnected 8⟩

end Network

end MediaCatalog
