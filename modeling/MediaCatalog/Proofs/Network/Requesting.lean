import MediaCatalog.Network.Serving
import MediaCatalog.Proofs.Client.Sending
import MediaCatalog.Proofs.Server.Served

/-!
Requests on both sides. A client lays out what it sends, and the service reads it back, each by
itself. They agree: what passes the checks of the client leaves as one message with as many
arguments as its command wants, and whatever the state of the service, the answer is that of the
operation that was meant, and finds nothing wrong with an argument. The same holds for the message
by which a signal is asked for, which leaves once only for each signal.
-/

namespace MediaCatalog

/-! ### Answers to requests -/

/-- What is known of the answer to a request that passed the checks of the client, from the
operation that it stands for. -/
structure Service.Fulfils (service : Service) (request : Request) (later : NodeId)
    (answer : Answer) : Prop where
  meant : answer = service.answerOf (service.meant request later).1
  accepts : ∀ reason, answer.outcome ≠ .error (.invalidArgument reason)
  /-- Saving succeeds, and the collection is there afterwards. -/
  saves : ∀ collection name space, request = .save collection name space →
    answer.outcome = .ok .none ∧ answer.service.store.get name space = .ok collection
  syncs : request = .sync → answer.outcome = .ok .none
  lists : ∀ space, request = .list space →
    answer.outcome = .ok (.ofStrings (service.store.names space))
  finds : ∀ id space, request = .find id space → ∃ names, answer.outcome = .ok (.ofStrings names)

namespace Service

variable {service : Service} {request : Request}

theorem answerOf_outcome_of_error {result : Except Error Done} {cause : Error}
    (h : (service.answerOf result).outcome = .error cause) : result = .error cause := by
  cases result with
  | error reason => exact congrArg _ (Except.error.inj h)
  | ok done => cases h

theorem fulfils_answerOf (hcheck : request.check = .ok ()) (later : NodeId) :
    service.Fulfils request later (service.answerOf (service.meant request later).1) where
  meant := rfl
  accepts reason h := by
    rcases service.meant_reports hcheck later _ (answerOf_outcome_of_error h) with
      ⟨what, hwhat⟩ | ⟨text, htext⟩
    · cases hwhat
    · cases htext
  saves collection name space hrequest := by
    subst hrequest
    obtain ⟨_, hname, hwritable⟩ := exists_of_bind_ok hcheck
    have hspace := Namespace.ensureWritable_eq_ok_iff.mp hwritable
    obtain ⟨change, hsave⟩ :=
      service.store.save_eq_ok (Request.requireName_eq_ok_iff.mp hname) hspace collection
    show (service.answerOf ((service.store.save name space collection).map _)).outcome = _ ∧
      (service.answerOf ((service.store.save name space collection).map _)).service.store.get
        name space = _
    rw [hsave]
    exact ⟨rfl, service.store.get_withTable_insert hspace collection⟩
  syncs hrequest := by
    subst hrequest
    rfl
  lists space hrequest := by
    subst hrequest
    rfl
  finds id space hrequest := by
    subst hrequest
    exact ⟨_, rfl⟩

end Service

/-! ### Signals -/

/-- The argument of a request to forward a signal is read back as that signal. -/
theorem Network.signalArg?_forwarding (signal : SignalKind) :
    signalArg? (Ledger.forwarding signal).args = some signal := by
  cases signal with
  | collectionChanged => decide

theorem Ledger.complete_forwarding (signal : SignalKind) : (forwarding signal).Complete :=
  ⟨["signal"], rfl, rfl⟩

/-- A request to forward a signal is never refused. -/
theorem Network.serveSignal_forwarding {η : Type} (network : Network η) (index : Nat)
    (client : LinkedClient η) (signal : SignalKind) :
    (network.serveSignal index client (Ledger.forwarding signal).number
      (Ledger.forwarding signal).args).1 = .ok .none := by
  have hforward : ¬ (Ledger.forwarding signal).number ≠ forwardCommand := not_not.mpr rfl
  rw [serveSignal, if_neg hforward, signalArg?_forwarding]
  dsimp only
  split <;> rfl

/-! ### Agreement -/

section Agreement

variable {σ η : Type} [Channel σ] {service : Service} {client : Client σ η}

/-- Client and service agree on the arguments of every request, and of every subscription. -/
theorem requests_agree (hequipped : service.Equipped) (hconnected : client.isConnected = true)
    (session : Session η) :
    (∀ request next, request.check = .ok () →
      let command := (request.command next).1
      command.Complete ∧
        client.Sends (session.message command) (client.request session request next).1 ∧
        ∀ later, service.Fulfils request later
          (service.call command.object command.number command.args later).1) ∧
    ∀ (signal : SignalKind) (subscriber : η),
      let subscribed := client.subscribe session signal subscriber
      let forwarding := Ledger.forwarding signal
      (signal.number ∉ session.requested →
        forwarding.Complete ∧ client.Sends (session.message forwarding) subscribed ∧
          ∀ (network : Network η) index linked,
            (network.serveSignal index linked forwarding.number forwarding.args).1 = .ok .none) ∧
      (signal.number ∈ session.requested →
        (∃ subscription, subscribed.1 = .ok subscription) ∧
          subscribed.2.channel = client.channel) ∧
      ∀ subscription, subscribed.1 = .ok subscription →
        ∀ steps : List (ClientStep σ η), (∀ step ∈ steps, step ≠ .disconnect) →
          ∃ kept, (steps.foldl Client.step subscribed.2).session = some kept ∧
            signal.number ∈ kept.requested := by
  refine ⟨fun request next hcheck => ⟨request.complete_command next, ?_, fun later => ?_⟩,
    fun signal subscriber => ⟨fun hnew => ?_, fun hasked => ?_,
      fun subscription hok steps hsteps => ?_⟩⟩
  · rw [Client.request_of_checked session hconnected hcheck]
    exact client.sends_sendOver session hconnected _
  · rw [Service.call_meant hequipped hcheck]
    exact Service.fulfils_answerOf hcheck later
  · exact ⟨Ledger.complete_forwarding signal, Client.sends_subscribe hconnected subscriber hnew,
      fun network index linked => network.serveSignal_forwarding index linked signal⟩
  · obtain ⟨subscription, hok, hchannel⟩ :=
      Client.subscribe_of_asked hconnected subscriber hasked
    exact ⟨⟨subscription, hok⟩, hchannel⟩
  · obtain ⟨asked, hasked, hmem⟩ := Client.requested_of_subscribe hconnected subscriber hok
    obtain ⟨kept, hkept, hsubset⟩ := Client.requested_of_steps hasked hsteps
    exact ⟨kept, hkept, hsubset hmem⟩

/-- Saving a collection in an empty service is one message, and succeeds. -/
theorem requests_agree_save :
    let service := Service.create {} { working := [] }
    let client : Client Outbox String := .create {} {}
    let session : Session String := .open {}
    let request := Request.save default "a" .playlists
    let command := (request.command 0).1
    service.Equipped ∧ client.isConnected = true ∧ request.check = .ok () ∧
      (client.request session request 0).1.2.channel.sent = [session.message command] ∧
      (service.call command.object command.number command.args 0).1.outcome = .ok .none := by
  intro service client session request command
  have hequipped : service.Equipped := .create {} { working := [] }
  have hcheck : request.check = .ok () := by decide
  have hconnected : client.isConnected = true := rfl
  obtain ⟨-, hsends, hanswers⟩ :=
    (requests_agree hequipped hconnected session).1 request 0 hcheck
  refine ⟨hequipped, hconnected, hcheck, ?_, ((hanswers 0).saves default "a" .playlists rfl).1⟩
  rw [hsends.channel]
  rfl

end Agreement

end MediaCatalog
