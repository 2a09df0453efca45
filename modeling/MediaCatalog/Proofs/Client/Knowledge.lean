import MediaCatalog.Proofs.Client.Steps
import MediaCatalog.Proofs.Object.Order

/-!
What a session knows. Each request in its table leads to a reply that waits for just this request,
whoever waits would tell the session of a cancel, and subscribers are connected to no signals but
those that the server was asked for. This is so after any steps of a client over any channel, even
if request numbers come back. That, the other way round, each reply that waits is in the table does
depend on the numbers.
-/

namespace MediaCatalog

variable {σ η : Type}

/-! ### Tables of a registry -/

theorem Registry.connections_foldl_disconnectAll {κ γ : Type} (registry : Registry κ η γ)
    (signals : List UInt32) (other : UInt32) :
    (signals.foldl (fun registry signal => (registry.disconnectAll signal).2) registry).connections
      other = if other ∈ signals then [] else registry.connections other := by
  induction signals generalizing registry with
  | nil => rfl
  | cons signal signals ih =>
      rw [List.foldl_cons, ih, connections_disconnectAll]
      by_cases hlater : other ∈ signals
      · rw [if_pos hlater, if_pos (List.mem_cons_of_mem _ hlater)]
      · simp only [hlater, if_false, List.mem_cons, or_false, eq_comm]

/-! ### The session -/

/-- What a session knows holds of the replies of its client. -/
structure Session.Knows (session : Session η) (replies : List Reply) : Prop where
  waiting : ∀ request (index : Nat), session.pending[request]? = some index →
    ∃ reply, replies[index]? = some reply ∧ reply.request = request ∧ reply.settlement = .sent
  hooked : ∀ reply ∈ replies, reply.settlement = .sent → reply.hooked = true
  unheard : ∀ signal, signal ∉ session.requested → session.broadcasts.connections signal = []

namespace Session.Knows

variable {session : Session η} {replies : List Reply}

theorem initial (settings : ClientSettings) : (Session.open settings : Session η).Knows [] where
  waiting request index h := by simp [Session.open] at h
  hooked reply hreply := by cases hreply
  unheard signal _ := rfl

variable (h : session.Knows replies)
include h

theorem accepted : (session.await replies.length).Knows
    (replies ++ [{ request := session.nextRequest, hooked := true }]) := by
  refine ⟨fun request index hindex => ?_, fun reply hreply hsent => ?_, h.unheard⟩
  · rw [await, Std.TreeMap.getElem?_insert] at hindex
    simp only [Std.compare_eq_iff_eq] at hindex
    simp only [getElem?_append_singleton]
    split at hindex
    · next hsame =>
      obtain rfl := Option.some.inj hindex
      exact ⟨_, .inr ⟨rfl, rfl⟩, hsame, rfl⟩
    · obtain ⟨reply, hreply, hrest⟩ := h.waiting request index hindex
      exact ⟨reply, .inl hreply, hrest⟩
  · rcases List.mem_append.mp hreply with hearlier | hnew
    · exact h.hooked reply hearlier hsent
    · rw [List.mem_singleton.mp hnew]

theorem refused (index : Nat) :
    ((session.await index).forget session.nextRequest).Knows replies := by
  refine ⟨fun request i hi => ?_, h.hooked, h.unheard⟩
  rw [forget, await, Std.TreeMap.getElem?_erase, Std.TreeMap.getElem?_insert] at hi
  simp only [Std.compare_eq_iff_eq] at hi
  split at hi
  · cases hi
  · exact h.waiting request i hi

section Replacing

variable {index : Nat} {reply : Reply} (hreply : replies[index]? = some reply)
include hreply

/-- A reply that settles is forgotten, and whatever else waits has another request. -/
theorem settle {reply' : Reply} (hrequest : reply'.request = reply.request)
    (hsettled : reply'.settlement ≠ .sent) :
    (session.forget reply.request).Knows (replies.set index reply') := by
  refine ⟨fun request i hi => ?_, fun other hother hsent => ?_, h.unheard⟩
  · rw [forget, Std.TreeMap.getElem?_erase] at hi
    simp only [Std.compare_eq_iff_eq] at hi
    simp only [getElem?_set_eq_some hreply]
    split at hi
    · cases hi
    · next hdiffers =>
      obtain ⟨other, hother, hrequest', hwaits⟩ := h.waiting request i hi
      refine ⟨other, .inr ⟨?_, hother⟩, hrequest', hwaits⟩
      rintro rfl
      obtain rfl := Option.some.inj (hreply.symm.trans hother)
      exact hdiffers hrequest'
  · rcases List.mem_or_eq_of_mem_set hother with hkept | rfl
    · exact h.hooked other hkept hsent
    · exact absurd hsent hsettled

/-- The session does not know of callbacks. -/
theorem register (callback : Callback) :
    session.Knows (replies.set index { reply with callback }) := by
  refine ⟨fun request i hi => ?_, fun other hother hsent => ?_, h.unheard⟩
  · obtain ⟨other, hother, hrest⟩ := h.waiting request i hi
    simp only [getElem?_set_eq_some hreply]
    by_cases hsame : i = index
    · subst hsame
      obtain rfl := Option.some.inj (hreply.symm.trans hother)
      exact ⟨_, .inl ⟨rfl, rfl⟩, hrest⟩
    · exact ⟨other, .inr ⟨hsame, hother⟩, hrest⟩
  · rcases List.mem_or_eq_of_mem_set hother with hkept | rfl
    · exact h.hooked other hkept hsent
    · exact h.hooked reply (List.mem_of_getElem? hreply) hsent

end Replacing

/-- A subscriber is connected to a signal that was asked for. -/
theorem attach {requested : List UInt32} (hkept : ∀ signal ∈ session.requested, signal ∈ requested)
    {signal : UInt32} (hsignal : signal ∈ requested) (subscriber : η) :
    Knows { session with
      requested, broadcasts := (session.broadcasts.connect signal subscriber none).2 } replies := by
  refine ⟨h.waiting, h.hooked, fun other hother => ?_⟩
  show (session.broadcasts.connect signal subscriber none).2.connections other = []
  have hne : signal ≠ other := by
    rintro rfl
    exact hother hsignal
  rw [Registry.connections_connect, if_neg hne]
  exact h.unheard other fun hmem => hother (hkept other hmem)

/-- Ending a subscription ends nothing else. -/
theorem unsubscribe {subscription : Subscription} {broadcasts : Registry Empty η Empty}
    (hended : session.broadcasts.unsubscribe subscription = .ok broadcasts) :
    Knows { session with broadcasts } replies := by
  refine ⟨h.waiting, h.hooked, fun signal hsignal => List.sublist_nil.mp ?_⟩
  rw [← h.unheard signal hsignal]
  exact Registry.sublist_of_unsubscribe hended signal

end Session.Knows

/-! ### What clients do by themselves -/

/-- Steps that a client takes by itself; the others are those of its channel. -/
def ClientStep.own : ClientStep σ η → Bool
  | send _ | subscribe _ _ | unsubscribe _ | onComplete _ | cancel _ => true
  | receive _ | disconnect | channel _ => false

/-- What can come of a client by what it does itself. -/
inductive Client.Acts [Channel σ] (client : Client σ η) : Client σ η → Prop where
  | idle : client.Acts client
  | send {session : Session η} (hopened : client.session = some session) (command : Command) :
      client.Acts (client.sendOver session command).2
  | subscribe {session : Session η} (hopened : client.session = some session)
      (signal : SignalKind) (subscriber : η) :
      client.Acts (client.subscribe session signal subscriber).2
  | unsubscribe {session : Session η} (hopened : client.session = some session)
      {subscription : Subscription} {broadcasts : Registry Empty η Empty}
      (hended : session.broadcasts.unsubscribe subscription = .ok broadcasts) :
      client.Acts { client with session := some { session with broadcasts } }
  /-- A callback is registered. -/
  | register {index : Nat} {reply : Reply} (hreply : client.replies[index]? = some reply)
      (callback : Callback) (given : Option (Except Error Value)) :
      client.Acts (client.settle index { reply with callback } given)
  /-- A reply that waits is cancelled. -/
  | cancel {index : Nat} {reply : Reply} (hreply : client.replies[index]? = some reply)
      (hsent : reply.settlement = .sent) : client.Acts (client.cancel index)

/-- A reply that settled before, or that there is not, cannot be cancelled. -/
theorem Client.cancel_of_settled {client : Client σ η} {index : Nat}
    (h : ∀ reply, client.replies[index]? = some reply → reply.settlement ≠ .sent) :
    client.cancel index = client := by
  rw [cancel, reply?]
  cases hreply : client.replies[index]? with
  | none => rfl
  | some reply =>
      dsimp only
      rw [Reply.cancel_settled (h reply hreply), if_neg Bool.false_ne_true, settle_self hreply]

theorem Client.acts_step [Channel σ] (client : Client σ η) {deed : ClientStep σ η}
    (hown : deed.own) : client.Acts (client.step deed) := by
  cases deed with
  | send command =>
      rw [step]
      split
      · exact .idle
      · next session hopened => exact .send hopened command
  | subscribe signal subscriber =>
      rw [step]
      split
      · exact .idle
      · next session hopened => exact .subscribe hopened signal subscriber
  | unsubscribe subscription =>
      rw [step, unsubscribe]
      split
      · exact .idle
      · next session hopened =>
        cases hended : session.broadcasts.unsubscribe subscription with
        | error error => exact .idle
        | ok broadcasts => exact .unsubscribe hopened hended
  | onComplete index =>
      rw [step, reply?]
      cases hreply : client.replies[index]? with
      | none => exact .idle
      | some reply =>
          dsimp only
          cases honComplete : client.onComplete index reply with
          | error error => exact .idle
          | ok client' =>
              obtain ⟨⟨reply', given⟩, hregister, hclient'⟩ := exists_of_bind_ok honComplete
              obtain rfl : client.settle index reply' given = client' := Except.ok.inj hclient'
              obtain ⟨callback, rfl⟩ := Reply.exists_callback_of_onComplete hregister
              exact .register hreply callback given
  | cancel index =>
      by_cases hwaits : ∃ reply, client.replies[index]? = some reply ∧ reply.settlement = .sent
      · obtain ⟨reply, hreply, hsent⟩ := hwaits
        exact .cancel hreply hsent
      · have hsame : client.cancel index = client :=
          cancel_of_settled fun reply hreply hsent => hwaits ⟨reply, hreply, hsent⟩
        rw [step, hsame]
        exact .idle
  | receive delivery => cases hown
  | disconnect => cases hown
  | channel state => cases hown

/-! ### The client -/

/-- A session that lost its channel: it waits for nothing, and all its subscriptions ended. -/
def Session.lost (session : Session η) : Session η :=
  { session with
    pending := {}
    requested := []
    broadcasts := session.requested.foldl
      (fun broadcasts signal => (broadcasts.disconnectAll signal).2) session.broadcasts }

theorem Client.disconnected_session (client : Client σ η) :
    client.disconnected.session = client.session.map Session.lost := by
  rw [disconnected]
  cases hopened : client.session with
  | none => exact hopened
  | some session => exact completeAll_session _ (.error .notConnected) session.pending.toList

/-- The session of the client, if there is one, knows its replies. -/
def Client.Knows (client : Client σ η) : Prop :=
  ∀ session, client.session = some session → session.Knows client.replies

namespace Client.Knows

theorem create (channel : σ) (settings : ClientSettings) :
    (Client.create channel settings : Client σ η).Knows := by
  rintro session ⟨⟩
  exact .initial settings

variable {client : Client σ η} (h : client.Knows)
include h

theorem sendOver [Channel σ] {session : Session η} (hopened : client.session = some session)
    (command : Command) : (client.sendOver session command).2.Knows := by
  have hknows := h session hopened
  rcases client.sendOver_cases session command with
    ⟨error, hsend⟩ | ⟨error, channel, hsend⟩ | ⟨channel, hsend⟩
  · rw [hsend]
    exact h
  · rw [hsend]
    rintro session' ⟨⟩
    exact hknows.refused client.replies.length
  · rw [hsend]
    rintro session' ⟨⟩
    exact hknows.accepted

theorem subscribe [Channel σ] {session : Session η} (hopened : client.session = some session)
    (signal : SignalKind) (subscriber : η) :
    (client.subscribe session signal subscriber).2.Knows := by
  rw [Client.subscribe]
  split
  · exact h
  · dsimp only
    split
    · next hasked =>
      rintro session' ⟨⟩
      exact (h session hopened).attach (fun _ hmem => hmem) hasked subscriber
    · have hsent := h.sendOver hopened
        ⟨.signal, forwardCommand, [.int signal.number.toUInt64.toInt64]⟩
      split
      · next error after hsend =>
        rw [hsend] at hsent
        exact hsent
      · next index after hsend =>
        rw [hsend] at hsent
        split
        · exact hsent
        · next session' hopened' =>
          rintro session'' ⟨⟩
          exact (hsent session' hopened').attach (fun _ hmem => List.mem_cons_of_mem _ hmem)
            List.mem_cons_self subscriber

theorem receive (delivery : Delivery) : (client.receive delivery).Knows := by
  rw [Client.receive]
  split
  · exact h
  · next session hopened =>
    split
    · next request hrequest =>
      split
      · exact h
      · next index hindex =>
        obtain ⟨reply, hreply, rfl, -⟩ := (h session hopened).waiting request index hindex
        intro session' hsession'
        rw [Client.complete_session] at hsession'
        obtain rfl := Option.some.inj hsession'
        simp only [Client.complete, Client.reply?, hreply]
        exact (h session hopened).settle hreply (reply.complete_request delivery.outcome)
          (reply.complete_settles delivery.outcome)
    · exact h

theorem cancel {index : Nat} {reply : Reply} (hreply : client.replies[index]? = some reply)
    (hsent : reply.settlement = .sent) : (client.cancel index).Knows := by
  obtain ⟨hcancelled, htold⟩ := Reply.cancel_sent hsent
  simp only [Client.cancel, Client.reply?, hreply]
  split
  · intro session' hsession'
    obtain ⟨session, hopened, rfl⟩ := Option.map_eq_some_iff.mp hsession'
    refine (h session hopened).settle hreply reply.cancel_request ?_
    rw [hcancelled]
    exact Settlement.noConfusion
  · next huntold =>
    -- Whoever waits tells the session.
    intro session hopened
    have hhooked := (h session hopened).hooked reply (List.mem_of_getElem? hreply) hsent
    exact absurd (htold.trans hhooked) huntold

theorem acts [Channel σ] {client' : Client σ η} (hacts : client.Acts client') : client'.Knows := by
  cases hacts with
  | idle => exact h
  | send hopened command => exact h.sendOver hopened command
  | subscribe hopened signal subscriber => exact h.subscribe hopened signal subscriber
  | unsubscribe hopened hended =>
      rintro session' ⟨⟩
      exact (h _ hopened).unsubscribe hended
  | register hreply callback given =>
      exact fun session hopened => (h session hopened).register hreply callback
  | cancel hreply hsent => exact h.cancel hreply hsent

theorem disconnected : client.disconnected.Knows := by
  intro session' hsession'
  rw [disconnected_session] at hsession'
  obtain ⟨session, hopened, rfl⟩ := Option.map_eq_some_iff.mp hsession'
  refine ⟨fun request index hindex => ?_, fun reply' hreply' hsent => ?_, fun signal _ => ?_⟩
  · rw [Session.lost, Std.TreeMap.getElem?_emptyc] at hindex
    cases hindex
  · rw [Client.disconnected, hopened] at hreply'
    obtain ⟨i, hi⟩ := List.mem_iff_getElem?.mp hreply'
    have hcompleted := (Client.getElem?_completeAll _ (.error .notConnected)
      session.pending.toList i).symm.trans hi
    obtain ⟨reply, hreply, rfl⟩ := Option.map_eq_some_iff.mp hcompleted
    split at hsent
    · exact absurd hsent (reply.complete_settles _)
    · next hnot =>
      rw [if_neg hnot]
      exact (h session hopened).hooked reply (List.mem_of_getElem? hreply) hsent
  · show Registry.connections (List.foldl _ _ _) signal = []
    rw [Registry.connections_foldl_disconnectAll]
    split
    · rfl
    · next hnot => exact (h session hopened).unheard signal hnot

/-- When the channel is lost, whatever is in the table fails. -/
theorem failed {session : Session η} (hopened : client.session = some session) {request : UInt32}
    {index : Nat} (hindex : session.pending[request]? = some index) :
    ∃ reply, client.disconnected.replies[index]? = some reply ∧ reply.request = request ∧
      reply.settlement = .result (.error .notConnected) := by
  obtain ⟨reply, hreply, hrequest, hsent⟩ := (h session hopened).waiting request index hindex
  have hmem : index ∈ session.pending.toList.map Prod.snd :=
    List.mem_map_of_mem (Std.TreeMap.mem_toList_iff_getElem?_eq_some.mpr hindex)
  refine ⟨(reply.complete (.error .notConnected)).1, ?_,
    (reply.complete_request _).trans hrequest, Reply.complete_sent hsent _⟩
  rw [Client.disconnected, hopened]
  refine (Client.getElem?_completeAll _ (.error .notConnected) session.pending.toList
    index).trans ?_
  rw [hreply, Option.map_some, if_pos hmem]

/-- Whatever happens to a client, its session knows the replies. -/
theorem step [Channel σ] (step : ClientStep σ η) : (client.step step).Knows := by
  cases step with
  | receive delivery => exact h.receive delivery
  | disconnect => exact h.disconnected
  | channel state => exact h
  | _ => exact h.acts (client.acts_step rfl)

end Client.Knows

/-! ### Request numbers -/

/-- No step opens a session again. -/
theorem Client.session_step_of_none [Channel σ] {client : Client σ η}
    (hnone : client.session = none) (step : ClientStep σ η) :
    (client.step step).session = none := by
  have hacts {client' : Client σ η} (h : client.Acts client') : client'.session = none := by
    cases h with
    | idle => exact hnone
    | send hopened => cases hnone.symm.trans hopened
    | subscribe hopened => cases hnone.symm.trans hopened
    | unsubscribe hopened => cases hnone.symm.trans hopened
    | register => exact hnone
    | cancel hreply =>
        simp only [cancel, reply?, hreply]
        split
        · exact Option.map_eq_none_iff.mpr hnone
        · exact hnone
  cases step with
  | receive delivery =>
      rw [Client.step, receive, hnone]
      exact hnone
  | disconnect =>
      rw [Client.step, disconnected, hnone]
      exact hnone
  | channel state => exact hnone
  | _ => exact hacts (client.acts_step rfl)

/-- The session knows the replies, and all that wait as long as so few requests were made that no
number can have come back. -/
structure Client.Informed (requests : Nat) (client : Client σ η) : Prop where
  knows : client.Knows
  tracks : ∀ session, client.session = some session → requests < 2 ^ 32 →
    ∃ drawn ≤ requests, session.Tracks drawn client.replies

namespace Client.Informed

theorem create (channel : σ) (settings : ClientSettings) (requests : Nat) :
    (Client.create channel settings : Client σ η).Informed requests := by
  refine ⟨.create channel settings, ?_⟩
  rintro session ⟨⟩ -
  exact ⟨0, Nat.zero_le _, .initial settings⟩

variable {client : Client σ η} {requests : Nat} (h : client.Informed requests)
include h

theorem mono {requests' : Nat} (hle : requests ≤ requests') : client.Informed requests' := by
  refine ⟨h.knows, fun session hopened hlt => ?_⟩
  obtain ⟨drawn, hdrawn, htracks⟩ := h.tracks session hopened (Nat.lt_of_le_of_lt hle hlt)
  exact ⟨drawn, Nat.le_trans hdrawn hle, htracks⟩

theorem step [Channel σ] (step : ClientStep σ η) :
    (client.step step).Informed (requests + if step.sends then 1 else 0) := by
  refine ⟨h.knows.step step, fun session' hopened' hlt => ?_⟩
  cases hopened : client.session with
  | none =>
      rw [Client.session_step_of_none hopened step] at hopened'
      cases hopened'
  | some session =>
      obtain ⟨drawn, hdrawn, htracks⟩ := h.tracks session hopened (by omega)
      obtain ⟨after, drawn', hafter, hdrawn', htracks'⟩ :=
        (htracks.yields hopened (by omega) step).tracks
      obtain rfl := Option.some.inj (hafter.symm.trans hopened')
      exact ⟨drawn', by omega, htracks' (by omega)⟩

theorem withChannel (channel : σ) : { client with channel }.Informed requests := ⟨h.knows, h.tracks⟩

omit h in
/-- Without a session there is nothing to know. -/
theorem dropped (hnone : client.session = none) : client.Informed requests := by
  constructor
  · intro session hopened
    rw [hnone] at hopened
    cases hopened
  · intro session hopened
    rw [hnone] at hopened
    cases hopened

end Client.Informed

end MediaCatalog
