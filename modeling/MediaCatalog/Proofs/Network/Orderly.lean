import MediaCatalog.Proofs.Network.Steps

/-!
Order on a network. Whatever happens, the service has no more forwarders of a signal to a client
than the client's link has noted, so that closing the link takes off all of them; and a client whose
link is closed has nothing noted, waits for nothing and subscribes to nothing.
-/

namespace MediaCatalog

variable {η : Type}

/-! ### Taking off forwarders -/

theorem countP_eraseP {α : Type} (test : α → Bool) (items : List α) :
    (items.eraseP test).countP test = items.countP test - 1 := by
  induction items with
  | nil => rfl
  | cons item items ih =>
      rw [List.eraseP_cons]
      cases htest : test item with
      | true => simp [htest]
      | false => simp [htest, ih]

theorem filter_eraseP {α : Type} (test : α → Bool) (items : List α) :
    (items.eraseP test).filter (fun item => !test item) = items.filter fun item => !test item := by
  induction items with
  | nil => rfl
  | cons item items ih =>
      rw [List.eraseP_cons]
      cases htest : test item with
      | true => simp [htest]
      | false => simp [htest, ih]

namespace Service

theorem connections_disconnect (service : Service) (signal : UInt32) (observer : Observer)
    (other : UInt32) : (service.disconnect signal observer).collection.connections other =
      if signal = other then
        (service.collection.connections signal).eraseP (Listener.isOf observer)
      else service.collection.connections other := by
  have htest : (fun listener : Listener Observer Empty =>
      decide (listener.handler = observer ∧ listener.context = none)) =
        Listener.isOf observer := by
    funext listener
    cases hcontext : listener.context with
    | none => simp [Listener.isOf]
    | some context => exact context.elim
  rw [disconnect, Registry.disconnect, htest]
  cases hremove : service.collection.removeFirst? signal (Listener.isOf observer) with
  | some collection => exact Registry.connections_removeFirst? hremove other
  | none =>
      -- Nothing was connected, so there is nothing to erase.
      show service.collection.connections other = _
      rw [Registry.removeFirst?] at hremove
      split at hremove
      · cases hremove
      · next hnone =>
        rw [List.eraseP_of_forall_not fun listener hlistener htest =>
          hnone (List.any_eq_true.mpr ⟨listener, hlistener, htest⟩)]
        split
        · next hsame => rw [← hsame]
        · rfl

/-- Taking an observer off changes nothing but connections. -/
theorem exists_signals_of_disconnect (service : Service) (signal : UInt32) (observer : Observer) :
    ∃ signals, service.disconnect signal observer =
      { service with collection := { service.collection with signals } } := by
  rw [disconnect, Registry.disconnect]
  cases hremove : service.collection.removeFirst? signal _ with
  | none => exact ⟨_, rfl⟩
  | some collection =>
      rw [Registry.removeFirst?] at hremove
      split at hremove
      · obtain rfl := Option.some.inj hremove
        exact ⟨_, rfl⟩
      · cases hremove

/-- Taking an observer off some signals. -/
def disconnectFrom (service : Service) (observer : Observer) (signals : List UInt32) : Service :=
  signals.foldl (fun service signal => service.disconnect signal observer) service

theorem exists_signals_of_disconnectFrom (service : Service) (observer : Observer)
    (places : List UInt32) : ∃ signals, service.disconnectFrom observer places =
      { service with collection := { service.collection with signals } } := by
  induction places generalizing service with
  | nil => exact ⟨_, rfl⟩
  | cons place places ih =>
      obtain ⟨first, hfirst⟩ := service.exists_signals_of_disconnect place observer
      obtain ⟨signals, hsignals⟩ := ih (service.disconnect place observer)
      refine ⟨signals, hsignals.trans ?_⟩
      rw [hfirst]

/-- If no signal has more connections of the observer than it is taken off, all of them go, and the
other connections stay in their order. -/
theorem connections_disconnectFrom (service : Service) (observer : Observer) (places : List UInt32)
    (h : ∀ signal, (service.collection.connections signal).countP (Listener.isOf observer) ≤
      places.count signal) (signal : UInt32) :
    (service.disconnectFrom observer places).collection.connections signal =
      (service.collection.connections signal).filter fun listener =>
        !Listener.isOf observer listener := by
  induction places generalizing service with
  | nil =>
      have hnone := Nat.le_zero.mp (h signal)
      refine (List.filter_eq_self.mpr fun listener hlistener => ?_).symm
      rw [Bool.not_eq_true']
      exact Bool.eq_false_iff.mpr (List.countP_eq_zero.mp hnone listener hlistener)
  | cons place places ih =>
      refine (ih (service.disconnect place observer) fun other => ?_).trans ?_
      · have hother := h other
        rw [List.count_cons] at hother
        rw [connections_disconnect]
        split
        · next hsame =>
          subst hsame
          rw [countP_eraseP]
          simp only [BEq.rfl, if_true] at hother
          omega
        · next hdiffers =>
          simp only [beq_iff_eq, hdiffers, if_false] at hother
          exact hother
      · rw [connections_disconnect]
        split
        · next hsame =>
          subst hsame
          exact filter_eraseP (Listener.isOf observer) _
        · rfl

end Service

/-! ### Clients of a network -/

/-- A link that is as open as before and has the same signals noted. -/
structure Link.Alike (before after : Link) : Prop where
  connected : after.connected = before.connected
  forwarded : after.forwarded = before.forwarded

theorem Link.Alike.refl (link : Link) : link.Alike link := ⟨rfl, rfl⟩

/-- Nothing is noted of a client that is cut off: no signal is forwarded to it, and its session
waits for nothing and asked for nothing. -/
structure Client.Severed (client : LinkedClient η) : Prop where
  forwarded : client.channel.forwarded = []
  pending : ∀ session, client.session = some session →
    ∀ request : UInt32, session.pending[request]? = none
  requested : ∀ session, client.session = some session → session.requested = []

/-- A client stands well if its session knows its replies, and it is cut off once its link is
closed. -/
structure Client.Orderly (requests : Nat) (client : LinkedClient η) : Prop where
  informed : client.Informed requests
  severed : client.channel.connected = false → client.Severed

/-- The signals that the link of a client has noted as forwarded. -/
def Network.noted (network : Network η) (index : Nat) : List UInt32 :=
  ((network.client? index).map fun client => client.channel.forwarded).getD []

/-- All clients stand well, and the links have noted every forwarder. -/
structure Network.Orderly (requests : Nat) (network : Network η) : Prop where
  clients : ∀ (index : Nat) client, network.client? index = some client → client.Orderly requests
  forwards : ∀ signal index, Registry.forwarders network.service.collection signal index ≤
    (network.noted index).count signal

/-! ### What clients do -/

namespace Client

variable {client : LinkedClient η}

theorem complete_channel (client : LinkedClient η) (index : Nat) (outcome : Except Error Value) :
    (client.complete index outcome).channel = client.channel := by
  rw [complete]
  cases client.reply? index <;> rfl

theorem completeAll_channel (client : LinkedClient η) (outcome : Except Error Value)
    (entries : List (UInt32 × Nat)) :
    (client.completeAll outcome entries).channel = client.channel := by
  induction entries generalizing client with
  | nil => rfl
  | cons entry entries ih => exact (ih _).trans (client.complete_channel entry.2 outcome)

theorem receive_channel (client : LinkedClient η) (delivery : Delivery) :
    (client.receive delivery).channel = client.channel := by
  rw [receive]
  split
  · rfl
  · split
    · split
      · rfl
      · exact complete_channel _ _ _
    · rfl

theorem disconnected_channel (client : LinkedClient η) :
    client.disconnected.channel = client.channel := by
  rw [disconnected]
  split
  · rfl
  · exact completeAll_channel _ _ _

/-- A client that lost its channel has nothing to wait for. -/
theorem disconnected_severed (hforwarded : client.channel.forwarded = []) :
    client.disconnected.Severed := by
  refine ⟨client.disconnected_channel ▸ hforwarded, fun session' hsession' => ?_,
    fun session' hsession' => ?_⟩
  · rw [disconnected_session] at hsession'
    obtain ⟨session, -, rfl⟩ := Option.map_eq_some_iff.mp hsession'
    exact fun request => Std.TreeMap.getElem?_emptyc
  · rw [disconnected_session] at hsession'
    obtain ⟨session, -, rfl⟩ := Option.map_eq_some_iff.mp hsession'
    rfl

/-! ### Acts -/

theorem alike_send (link : Link) (message : Message) :
    link.Alike (Channel.send link message).2 := by
  simp only [Channel.send]
  split
  · exact .refl link
  · split
    · exact .refl link
    · exact ⟨rfl, rfl⟩

theorem alike_sendOver (client : LinkedClient η) (session : Session η) (command : Command) :
    client.channel.Alike (client.sendOver session command).2.channel := by
  rw [sendOver]
  split
  · exact .refl _
  · have hsent := alike_send client.channel
      ⟨session.nextRequest, command.object, command.number, command.args⟩
    dsimp only
    split
    · next channel hsend =>
      rw [hsend] at hsent
      exact hsent
    · next error channel hsend =>
      rw [hsend] at hsent
      exact hsent

theorem alike_subscribe (client : LinkedClient η) (session : Session η) (signal : SignalKind)
    (subscriber : η) :
    client.channel.Alike (client.subscribe session signal subscriber).2.channel := by
  rw [subscribe]
  split
  · exact .refl _
  · dsimp only
    split
    · exact .refl _
    · have hsent := client.alike_sendOver session
        ⟨.signal, forwardCommand, [.int signal.number.toUInt64.toInt64]⟩
      split
      · next error after hsend =>
        rw [hsend] at hsent
        exact hsent
      · next index after hsend =>
        rw [hsend] at hsent
        split
        · exact hsent
        · exact hsent

/-- What a client does by itself neither closes its link nor has anything forwarded. -/
theorem Acts.alike {client' : LinkedClient η} (hacts : client.Acts client') :
    client.channel.Alike client'.channel := by
  cases hacts with
  | idle => exact .refl _
  | send _ command => exact client.alike_sendOver _ command
  | subscribe _ signal subscriber => exact client.alike_subscribe _ signal subscriber
  | unsubscribe => exact .refl _
  | register => exact .refl _
  | cancel hreply =>
      simp only [Client.cancel, reply?, hreply]
      split <;> exact .refl _

/-! ### Clients whose link is closed -/

section Closed

variable (hclosed : client.channel.connected = false)
include hclosed

theorem lost_of_closed : (!client.isConnected) = true := by
  simp only [isConnected, Channel.isConnected, hclosed, Bool.not_false]

theorem send_closed (message : Message) :
    Channel.send client.channel message = (.error .notConnected, client.channel) := by
  simp only [Channel.send, hclosed, Bool.not_false, if_true]

theorem sendOver_closed (session : Session η) (command : Command) :
    client.sendOver session command = (.error .notConnected, client) := by
  rw [sendOver, if_pos (lost_of_closed hclosed)]

theorem subscribe_closed (session : Session η) (signal : SignalKind) (subscriber : η) :
    client.subscribe session signal subscriber = (.error .notConnected, client) := by
  rw [subscribe, if_pos (lost_of_closed hclosed)]

theorem request_closed (session : Session η) (request : Request) :
    client.request session request = pure (.error .notConnected, client) := by
  rw [Client.request, if_pos (lost_of_closed hclosed)]

/-- Nothing that a client does by itself mends its session once it is cut off. -/
theorem Severed.acts (h : client.Severed) {client' : LinkedClient η} (hacts : client.Acts client') :
    client'.Severed := by
  cases hacts with
  | idle => exact h
  | send _ command =>
      rw [sendOver_closed hclosed]
      exact h
  | subscribe _ signal subscriber =>
      rw [subscribe_closed hclosed]
      exact h
  | @unsubscribe session hopened subscription broadcasts hended =>
      refine ⟨h.forwarded, ?_, ?_⟩
      · rintro session' ⟨⟩
        exact h.pending session hopened
      · rintro session' ⟨⟩
        exact h.requested session hopened
  | register => exact ⟨h.forwarded, h.pending, h.requested⟩
  | cancel hreply =>
      simp only [cancel, reply?, hreply]
      split
      · refine ⟨h.forwarded, fun session' hsession' request => ?_, fun session' hsession' => ?_⟩
        · obtain ⟨session, hopened, rfl⟩ := Option.map_eq_some_iff.mp hsession'
          rw [Std.TreeMap.getElem?_erase, h.pending session hopened, ite_self]
        · obtain ⟨session, hopened, rfl⟩ := Option.map_eq_some_iff.mp hsession'
          exact h.requested session hopened
      · exact ⟨h.forwarded, h.pending, h.requested⟩

end Closed

end Client

/-! ### Clients that stand well -/

namespace Client.Orderly

variable {client : LinkedClient η} {requests : Nat}

theorem create (settings : ClientSettings) (requests : Nat) :
    (Client.create { settings } settings : LinkedClient η).Orderly requests := by
  refine ⟨.create _ settings requests, fun hclosed => ?_⟩
  cases hclosed

variable (h : client.Orderly requests)
include h

theorem mono {requests' : Nat} (hle : requests ≤ requests') : client.Orderly requests' :=
  ⟨h.informed.mono hle, h.severed⟩

theorem step {deed : ClientStep Link η} (hown : deed.own) :
    (client.step deed).Orderly (requests + 1) := by
  refine ⟨(h.informed.step deed).mono ?_, fun hclosed => ?_⟩
  · split <;> omega
  · rw [(client.acts_step hown).alike.connected] at hclosed
    exact (h.severed hclosed).acts hclosed (client.acts_step hown)

/-- Only the link changes, and not in what it has noted. -/
theorem withChannel {channel : Link} (halike : client.channel.Alike channel) :
    { client with channel }.Orderly requests := by
  refine ⟨h.informed.withChannel channel, fun hclosed => ?_⟩
  have hsevered := h.severed (halike.connected ▸ hclosed)
  exact ⟨halike.forwarded.trans hsevered.forwarded, hsevered.pending, hsevered.requested⟩

theorem receive (hconnected : client.channel.connected = true) (delivery : Delivery) :
    (client.receive delivery).Orderly requests := by
  refine ⟨h.informed.step (.receive delivery), fun hclosed => ?_⟩
  rw [client.receive_channel, hconnected] at hclosed
  cases hclosed

/-- A client that is forwarded one more signal. -/
theorem forwarded (hconnected : client.channel.connected = true) (forwarded : List UInt32) :
    { client with channel := { client.channel with forwarded } }.Orderly requests := by
  refine ⟨h.informed.withChannel _, fun hclosed => ?_⟩
  rw [hconnected] at hclosed
  cases hclosed

theorem closed {channel : Link} (hforwarded : channel.forwarded = []) :
    Client.Orderly requests { client with channel }.disconnected :=
  ⟨(h.informed.withChannel channel).step .disconnect, fun _ =>
    Client.disconnected_severed hforwarded⟩

omit h in
theorem dropped {channel : Link} (hforwarded : channel.forwarded = []) :
    Client.Orderly requests { client with channel }.dropSession := by
  refine ⟨.dropped rfl, fun _ => ⟨hforwarded, fun session hopened => ?_, fun session hopened => ?_⟩⟩
  · cases hopened
  · cases hopened

end Client.Orderly

/-! ### The network -/

namespace Network

variable {network : Network η} {requests : Nat} {index : Nat} {client : LinkedClient η}

/-- The service without the forwarders that the link of a client has noted. -/
def detached (network : Network η) (index : Nat) (client : LinkedClient η) : Service :=
  network.service.disconnectFrom (.forwarder index) client.channel.forwarded

theorem noted_setClient (hclient : network.client? index = some client) (client' : LinkedClient η)
    (other : Nat) : (network.setClient index client').noted other =
      if index = other then client'.channel.forwarded else network.noted other := by
  rw [noted, client?_setClient]
  split
  · next hsame =>
    rw [← hsame, hclient]
    rfl
  · rfl

namespace Orderly

theorem create (settings : ServiceSettings) (files : Playlist.FileTree)
    (clients : List ClientSettings) :
    (Network.create (Service.create settings files) clients : Network η).Orderly 0 := by
  refine ⟨fun index client hclient => ?_, fun signal index => ?_⟩
  · rw [client?, Network.create, List.getElem?_map] at hclient
    obtain ⟨settings, -, rfl⟩ := Option.map_eq_some_iff.mp hclient
    exact .create settings 0
  · exact Nat.zero_le _

variable (h : network.Orderly requests)
include h

theorem mono {requests' : Nat} (hle : requests ≤ requests') : network.Orderly requests' :=
  ⟨fun index client hclient => (h.clients index client hclient).mono hle, h.forwards⟩

/-- One client and the service change. -/
theorem replace (hclient : network.client? index = some client) {service : Service}
    {client' : LinkedClient η} (horderly : client'.Orderly requests)
    (hforwards : ∀ signal other, Registry.forwarders service.collection signal other ≤
      (if index = other then client'.channel.forwarded else network.noted other).count signal) :
    ({ network with service }.setClient index client').Orderly requests := by
  refine ⟨fun other found hfound => ?_, fun signal other => ?_⟩
  · rw [client?_setClient] at hfound
    split at hfound
    · obtain ⟨_, -, rfl⟩ := Option.map_eq_some_iff.mp hfound
      exact horderly
    · exact h.clients other found hfound
  · have hsame : { network with service }.client? index = some client := hclient
    rw [noted_setClient hsame]
    exact hforwards signal other

/-- One client changes, and has as much noted as before. -/
theorem setClient (hclient : network.client? index = some client) {client' : LinkedClient η}
    (horderly : client'.Orderly requests)
    (hforwarded : client'.channel.forwarded = client.channel.forwarded) :
    (network.setClient index client').Orderly requests := by
  refine h.replace hclient horderly fun signal other => ?_
  have hnoted : (if index = other then client'.channel.forwarded else network.noted other) =
      network.noted other := by
    split
    · next hsame =>
      rw [hforwarded, noted, ← hsame, hclient]
      rfl
    · rfl
  rw [hnoted]
  exact h.forwards signal other

/-- A link takes all its forwarders off. -/
theorem connections_detached (hclient : network.client? index = some client) (signal : UInt32) :
    (network.detached index client).collection.connections signal =
      (network.service.collection.connections signal).filter fun listener =>
        !Listener.isOf (.forwarder index) listener := by
  refine Service.connections_disconnectFrom _ _ _ (fun place => ?_) signal
  have hforwards := h.forwards place index
  rw [noted, hclient] at hforwards
  exact hforwards

/-- A client that has its forwarders taken off. -/
theorem leave (hclient : network.client? index = some client) {client' : LinkedClient η}
    (horderly : client'.Orderly requests) :
    ((network.detach index client).setClient index client').Orderly requests := by
  have hforwards (signal : UInt32) (other : Nat) :
      Registry.forwarders (network.detached index client).collection signal other ≤
        (if index = other then client'.channel.forwarded
          else network.noted other).count signal := by
    rw [Registry.forwarders, h.connections_detached hclient]
    split
    · next hsame =>
      subst hsame
      have hnone : ((network.service.collection.connections signal).filter fun listener =>
          !Listener.isOf (.forwarder index) listener).countP (Listener.isOf (.forwarder index)) =
            0 := by
        refine List.countP_eq_zero.mpr fun listener hlistener htest => ?_
        have hkept := (List.mem_filter.mp hlistener).2
        rw [htest] at hkept
        cases hkept
      rw [hnone]
      exact Nat.zero_le _
    · exact Nat.le_trans List.filter_sublist.countP_le (h.forwards signal other)
  exact h.replace hclient horderly hforwards

theorem close (index : Nat) : (network.close index).Orderly requests := by
  rw [Network.close]
  cases hclient : network.client? index with
  | none => exact h
  | some client =>
      dsimp only
      split
      · exact h
      · exact h.leave hclient ((h.clients index client hclient).closed rfl)

theorem drop (index : Nat) : (network.drop index).Orderly requests := by
  rw [Network.drop]
  cases hclient : network.client? index with
  | none => exact h
  | some client => exact h.leave hclient (.dropped rfl)

theorem post (index : Nat) (message : Message) : (network.post index message).Orderly requests := by
  rw [Network.post]
  cases hclient : network.client? index with
  | none => exact h
  | some client =>
      have halike := Client.alike_send client.channel message
      exact h.setClient hclient ((h.clients index client hclient).withChannel halike)
        halike.forwarded

theorem join (settings : ClientSettings) :
    Orderly requests
      { network with clients := network.clients ++ [Client.create { settings } settings] } := by
  refine ⟨fun index client hclient => ?_, fun signal index => ?_⟩
  · rcases getElem?_append_singleton.mp hclient with hold | ⟨-, rfl⟩
    · exact h.clients index client hold
    · exact .create settings requests
  · refine Nat.le_trans (h.forwards signal index) (Nat.le_of_eq ?_)
    rw [noted, noted, client?, client?]
    -- Nothing is forwarded to the new client yet.
    rcases Nat.lt_or_ge index network.clients.length with hlt | hge
    · rw [List.getElem?_append_left hlt]
    · rw [List.getElem?_append_right hge, List.getElem?_eq_none hge]
      cases index - network.clients.length <;> rfl

/-- A signal that is forwarded is noted. -/
theorem forward (hclient : network.client? index = some client)
    (hconnected : client.channel.connected = true) (signal : UInt32) :
    Orderly requests
      ({ network with service := network.service.connect signal (.forwarder index) }.setClient
        index { client with channel := { client.channel with
          forwarded := client.channel.forwarded ++ [signal] } }) := by
  refine h.replace hclient ((h.clients index client hclient).forwarded hconnected _)
    fun place other => ?_
  have hforwards := h.forwards place other
  rw [Registry.forwarders] at hforwards ⊢
  rw [Service.connect, Registry.connections_connect]
  by_cases hindex : index = other
  · subst hindex
    rw [noted, hclient] at hforwards
    have hcount : (client.channel.forwarded ++ [signal]).count place =
        client.channel.forwarded.count place + if signal = place then 1 else 0 := by
      rw [List.count_append, List.count_singleton]
      simp only [beq_iff_eq]
    rw [if_pos rfl, hcount]
    split
    · next hsame =>
      subst hsame
      rw [List.countP_cons]
      simpa [Listener.isOf] using hforwards
    · exact hforwards
  · rw [if_neg hindex]
    split
    · next hsame =>
      subst hsame
      rw [List.countP_cons]
      simpa [Listener.isOf, hindex] using hforwards
    · exact hforwards

/-- A small change leaves the network in order. -/
theorem change {network' : Network η} (hchange : network.Change network') :
    network'.Orderly requests := by
  cases hchange with
  | serve hserves =>
      exact ⟨h.clients, fun signal index =>
        Nat.le_trans (hserves signal index) (h.forwards signal index)⟩
  | @hear index client hclient hconnected delivery =>
      exact h.setClient hclient ((h.clients index client hclient).receive hconnected delivery)
        (congrArg Link.forwarded (client.receive_channel delivery))
  | forward hclient hconnected signal => exact h.forward hclient hconnected signal
  | @dequeue index client hclient =>
      exact h.setClient hclient ((h.clients index client hclient).withChannel ⟨rfl, rfl⟩) rfl
  | post index message => exact h.post index message
  | close index => exact h.close index
  | drop index => exact h.drop index
  | join settings => exact h.join settings

theorem becomes {network' : Network η} (hbecomes : network.Becomes network') :
    network'.Orderly requests := by
  induction hbecomes with
  | refl => exact h
  | tail _ hchange ih => exact ih.change hchange

/-- A client makes at most one request at a time. -/
theorem act (index : Nat) {deed : ClientStep Link η} (hown : deed.own) :
    (network.act index deed).Orderly (requests + 1) := by
  rw [Network.act]
  cases hclient : network.client? index with
  | none => exact h.mono (Nat.le_succ requests)
  | some client =>
      exact (h.mono (Nat.le_succ requests)).setClient hclient
        ((h.clients index client hclient).step hown) (client.acts_step hown).alike.forwarded

theorem step (step : NetworkStep η) (next : NodeId) :
    (network.step step next).1.Orderly (requests + 1) := by
  rcases network.step_cases step next with ⟨index, deed, hown, -, hact⟩ | hbecomes
  · rw [hact]
    exact h.act index hown
  · exact (h.becomes hbecomes).mono (Nat.le_succ requests)

/-- Whatever happens, the network stays in order. -/
theorem run (steps : List (NetworkStep η)) (next : NodeId) :
    (network.run steps next).1.Orderly (requests + steps.length) := by
  induction steps generalizing network requests next with
  | nil => exact h
  | cons step steps ih =>
      have hrest := ih (h.step step next) (network.step step next).2
      rw [run_cons, List.length_cons, Nat.add_comm steps.length, ← Nat.add_assoc]
      exact hrest

end Orderly

end Network

end MediaCatalog
