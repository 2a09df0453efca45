import Mathlib.Data.List.Induction
import MediaCatalog.Client.Outbox
import MediaCatalog.Proofs.Client.Pending

/-!
Steps of a client. Whatever the channel does, and in whatever order messages are sent, answered,
cancelled and lost, the session waits for exactly the replies that have not settled, each under its
own request. A step settles the reply that it is about and no other; the loss of the channel settles
all that wait.
-/

namespace MediaCatalog

variable {σ η : Type}

/-! ### Steps of a client -/

/-- One thing that happens to a client. -/
inductive ClientStep (σ η : Type) where
  | send (command : Command)
  | subscribe (signal : SignalKind) (subscriber : η)
  | unsubscribe (subscription : Subscription)
  /-- The channel delivers an answer, to whatever request, or a broadcast. -/
  | receive (delivery : Delivery)
  | onComplete (index : Nat)
  | cancel (index : Nat)
  /-- The channel is lost, and says so. -/
  | disconnect
  /-- The channel changes without the client. -/
  | channel (state : σ)

namespace ClientStep

/-- Steps that send a message, or try to. -/
def sends : ClientStep σ η → Bool
  | send _ | subscribe _ _ => true
  | _ => false

/-- What a step makes of the reply to a request, at a position, that waits. -/
def settling (step : ClientStep σ η) (index : Nat) (request : UInt32) : Settlement :=
  match step with
  | receive delivery =>
    if delivery.request = some request then .result delivery.outcome else .sent
  | cancel position => if position = index then .cancelled else .sent
  | disconnect => .result (.error .notConnected)
  | _ => .sent

/-- What a step makes of a reply. One that settled before stays as it is. -/
def settlement (step : ClientStep σ η) (index : Nat) (reply : Reply) : Settlement :=
  match reply.settlement with
  | .sent => step.settling index reply.request
  | settled => settled

end ClientStep

namespace Client

variable [Channel σ]

def step (client : Client σ η) : ClientStep σ η → Client σ η
  | .send command =>
    match client.session with
    | none => client
    | some session => (client.sendOver session command).2
  | .subscribe signal subscriber =>
    match client.session with
    | none => client
    | some session => (client.subscribe session signal subscriber).2
  | .unsubscribe subscription => (client.unsubscribe subscription).toOption.getD client
  | .receive delivery => client.receive delivery
  | .onComplete index =>
    match client.reply? index with
    | none => client
    | some reply => (client.onComplete index reply).toOption.getD client
  | .cancel index => client.cancel index
  | .disconnect => client.disconnected
  | .channel state => { client with channel := state }

/-- A client after some steps. -/
def run (channel : σ) (settings : ClientSettings) (steps : List (ClientStep σ η)) : Client σ η :=
  steps.foldl step (create channel settings)

end Client

/-! ### What a step does to the replies -/

/-- Replies stay where they are, each settles as the step has it, and a step that sends may add one
that waits, to a request that no other reply has. -/
structure ClientStep.Affects (step : ClientStep σ η) (before after : List Reply) : Prop where
  settles : ∀ (index : Nat) reply, before[index]? = some reply → ∃ reply',
    after[index]? = some reply' ∧ reply'.request = reply.request ∧
      reply'.settlement = step.settlement index reply
  adds : after.length = before.length ∨ step.sends = true ∧ ∃ reply, after = before ++ [reply] ∧
    reply.settlement = .sent ∧ ∀ earlier ∈ before, earlier.request ≠ reply.request

namespace ClientStep

variable {step : ClientStep σ η} {index : Nat} {reply reply' : Reply} {replies : List Reply}

theorem settlement_of_sent (h : reply.settlement = .sent) :
    step.settlement index reply = step.settling index reply.request := by
  rw [settlement, h]

theorem settlement_of_settled (h : reply.settlement ≠ .sent) :
    step.settlement index reply = reply.settlement := by
  rw [settlement]
  split
  · next hsent => exact absurd hsent h
  · rfl

/-- A step that is not about a reply leaves it as it is. -/
theorem settlement_eq (h : step.settling index reply.request = .sent) :
    step.settlement index reply = reply.settlement := by
  by_cases hsent : reply.settlement = .sent
  · rw [settlement_of_sent hsent, h, hsent]
  · exact settlement_of_settled hsent

/-- Sending settles nothing. -/
theorem settling_of_sends (h : step.sends = true) (index : Nat) (request : UInt32) :
    step.settling index request = .sent := by
  cases step with
  | send | subscribe => rfl
  | _ => cases h

/-- A step that is about none of the replies. -/
theorem Affects.refl
    (hsame : ∀ (index : Nat) reply, replies[index]? = some reply →
      step.settlement index reply = reply.settlement) :
    step.Affects replies replies :=
  ⟨fun index reply hreply => ⟨reply, hreply, rfl, (hsame index reply hreply).symm⟩, .inl rfl⟩

/-- A step that is about one of the replies. -/
theorem Affects.set (hreply : replies[index]? = some reply)
    (hrequest : reply'.request = reply.request)
    (hsettles : reply'.settlement = step.settlement index reply)
    (hothers : ∀ (i : Nat) other, i ≠ index → replies[i]? = some other →
      step.settlement i other = other.settlement) :
    step.Affects replies (replies.set index reply') := by
  refine ⟨fun i found hfound => ?_, .inl List.length_set⟩
  simp only [getElem?_set_eq_some hreply]
  by_cases hsame : i = index
  · subst hsame
    obtain rfl := Option.some.inj (hreply.symm.trans hfound)
    exact ⟨reply', .inl ⟨rfl, rfl⟩, hrequest, hsettles⟩
  · exact ⟨found, .inr ⟨hsame, hfound⟩, rfl, (hothers i found hsame hfound).symm⟩

/-- A message that is accepted adds a reply. -/
theorem Affects.append (hsends : step.sends = true) (hsent : reply.settlement = .sent)
    (hfresh : ∀ earlier ∈ replies, earlier.request ≠ reply.request) :
    step.Affects replies (replies ++ [reply]) := by
  refine ⟨fun i found hfound => ?_, .inr ⟨hsends, reply, rfl, hsent, hfresh⟩⟩
  have hsame : step.settlement i found = found.settlement :=
    settlement_eq (settling_of_sends hsends i found.request)
  exact ⟨found, getElem?_append_singleton.mpr (.inl hfound), rfl, hsame.symm⟩

/-- The client after a step: its replies are affected as the step has it, and its session tracks
them, having drawn one more request number at the most. -/
structure Yields (step : ClientStep σ η) (drawn : Nat) (replies : List Reply)
    (client : Client σ η) : Prop where
  affects : step.Affects replies client.replies
  tracks : ∃ session drawn', client.session = some session ∧
    drawn' ≤ drawn + (if step.sends then 1 else 0) ∧
    (drawn' < 2 ^ 32 → session.Tracks drawn' client.replies)

/-- Only session and replies of the client matter. -/
theorem Yields.congr {drawn : Nat} {client client' : Client σ η}
    (h : step.Yields drawn replies client) (hsession : client'.session = client.session)
    (hreplies : client'.replies = client.replies) : step.Yields drawn replies client' := by
  obtain ⟨haffects, htracks⟩ := h
  rw [← hreplies] at haffects
  rw [← hsession, ← hreplies] at htracks
  exact ⟨haffects, htracks⟩

/-- Only request numbers and table of the session matter. -/
theorem Yields.withSession {drawn : Nat} {client : Client σ η} {session session' : Session η}
    (h : step.Yields drawn replies client) (hopened : client.session = some session)
    (hnext : session'.nextRequest = session.nextRequest)
    (hpending : session'.pending = session.pending) :
    step.Yields drawn replies { client with session := some session' } := by
  obtain ⟨known, drawn', hknown, hdrawn, htracks⟩ := h.tracks
  obtain rfl := Option.some.inj (hopened.symm.trans hknown)
  exact ⟨h.affects, session', drawn', rfl, hdrawn, fun hlt => (htracks hlt).congr hnext hpending⟩

end ClientStep

/-! ### Sending -/

/-- A message does not leave, or it is refused, or it is accepted; it is waited for only then. -/
theorem Client.sendOver_cases [Channel σ] (client : Client σ η) (session : Session η)
    (command : Command) :
    (∃ error, client.sendOver session command = (.error error, client)) ∨
    (∃ error channel, client.sendOver session command = (.error error,
      { client with
        channel
        session := some ((session.await client.replies.length).forget session.nextRequest) })) ∨
    ∃ channel, client.sendOver session command = (.ok client.replies.length,
      { client with
        channel
        session := some (session.await client.replies.length)
        replies := client.replies ++ [{ request := session.nextRequest, hooked := true }] }) := by
  rw [sendOver]
  split
  · exact .inl ⟨.notConnected, rfl⟩
  · dsimp only
    split
    · next channel hsend => exact .inr (.inr ⟨channel, rfl⟩)
    · next error channel hsend => exact .inr (.inl ⟨error, channel, rfl⟩)

namespace Session.Tracks

variable {client : Client σ η} {session : Session η} {drawn : Nat} {step : ClientStep σ η}
  (h : session.Tracks drawn client.replies) (hopened : client.session = some session)
include h hopened

/-- A step that is about none of the replies, and leaves the session as it is. -/
theorem still (hsame : ∀ (index : Nat) reply, client.replies[index]? = some reply →
    step.settlement index reply = reply.settlement) :
    step.Yields drawn client.replies client :=
  ⟨.refl hsame, session, drawn, hopened, Nat.le_add_right _ _, fun _ => h⟩

section Sending

variable (hdrawn : drawn < 2 ^ 32) [Channel σ] (hsends : step.sends = true)
include hdrawn hsends

theorem sendOver (command : Command) :
    step.Yields drawn client.replies (client.sendOver session command).2 := by
  have hsame (index : Nat) (reply : Reply) (_ : client.replies[index]? = some reply) :
      step.settlement index reply = reply.settlement :=
    ClientStep.settlement_eq (ClientStep.settling_of_sends hsends index reply.request)
  have hone : drawn + 1 ≤ drawn + (if step.sends then 1 else 0) := by simp [hsends]
  rcases client.sendOver_cases session command with
    ⟨error, hsend⟩ | ⟨error, channel, hsend⟩ | ⟨channel, hsend⟩
  · rw [hsend]
    exact h.still hopened hsame
  · rw [hsend]
    exact ⟨.refl hsame, _, drawn + 1, rfl, hone, fun _ => h.refused hdrawn _⟩
  · rw [hsend]
    exact ⟨.append hsends rfl (h.request_ne hdrawn), _, drawn + 1, rfl, hone, h.accepted⟩

theorem subscribe (signal : SignalKind) (subscriber : η) :
    step.Yields drawn client.replies (client.subscribe session signal subscriber).2 := by
  have hstill : step.Yields drawn client.replies client :=
    h.still hopened fun index reply _ =>
      ClientStep.settlement_eq (ClientStep.settling_of_sends hsends index reply.request)
  rw [Client.subscribe]
  split
  · exact hstill
  · dsimp only
    split
    · exact hstill.withSession hopened rfl rfl
    · next hnew =>
      have hsent := h.sendOver hopened hdrawn hsends
        ⟨.signal, forwardCommand, [.int signal.number.toUInt64.toInt64]⟩
      split
      · next error after hsend =>
        rw [hsend] at hsent
        exact hsent
      · next index after hsend =>
        rw [hsend] at hsent
        split
        · exact hsent
        · next session' hopened' => exact hsent.withSession hopened' rfl rfl

end Sending

/-! ### Settling -/

omit hopened in
/-- A step that settles one reply, and makes the session forget its request. -/
theorem settles_one {index : Nat} {reply reply' : Reply}
    (hreply : client.replies[index]? = some reply) (hsent : reply.settlement = .sent)
    (hrequest : reply'.request = reply.request) (hsettled : reply'.settlement ≠ .sent)
    (hstep : reply'.settlement = step.settling index reply.request)
    (hothers : ∀ (i : Nat) other, i ≠ index → client.replies[i]? = some other →
      step.settlement i other = other.settlement) {client' : Client σ η}
    (hreplies : client'.replies = client.replies.set index reply')
    (hforgets : client'.session = some (session.forget reply.request)) :
    step.Yields drawn client.replies client' := by
  refine ⟨?_, _, drawn, hforgets, Nat.le_add_right _ _, fun _ => ?_⟩
  · rw [hreplies]
    exact .set hreply hrequest (hstep.trans (ClientStep.settlement_of_sent hsent).symm) hothers
  · rw [hreplies]
    exact h.settle hreply hsent hrequest hsettled

theorem receive (delivery : Delivery) :
    (ClientStep.receive delivery : ClientStep σ η).Yields drawn client.replies
      (client.receive delivery) := by
  -- What the answer is for, if anything, is the reply that the table has for its request.
  have hothers (i : Nat) (other : Reply) (hother : client.replies[i]? = some other)
      (hnot : ∀ request, delivery.request = some request → session.pending[request]? ≠ some i) :
      (ClientStep.receive delivery : ClientStep σ η).settlement i other = other.settlement := by
    by_cases hsent : other.settlement = .sent
    · have hdiffers : delivery.request ≠ some other.request := fun hsame =>
        hnot other.request hsame (h.pending_of_sent hother hsent)
      exact ClientStep.settlement_eq (if_neg hdiffers)
    · exact ClientStep.settlement_of_settled hsent
  rw [Client.receive, hopened]
  dsimp only
  split
  · next request hrequest =>
    split
    · next hnone =>
      refine h.still hopened fun i other hother => hothers i other hother ?_
      intro request' hrequest'
      obtain rfl := Option.some.inj (hrequest.symm.trans hrequest')
      rw [hnone]
      exact Option.some_ne_none i ∘ Eq.symm
    · next index hindex =>
      obtain ⟨reply, hreply, rfl, hsent⟩ := (h.waiting _ _).mp hindex
      have hcompleted := Reply.complete_sent hsent delivery.outcome
      refine h.settles_one hreply hsent (reply.complete_request delivery.outcome)
        (reply.complete_settles delivery.outcome) ?_ ?_ ?_ ?_
      · rw [hcompleted]
        exact (if_pos hrequest).symm
      · intro i other hne hother
        refine hothers i other hother ?_
        intro request' hrequest' hi
        obtain rfl := Option.some.inj (hrequest.symm.trans hrequest')
        exact hne (Option.some.inj (hi.symm.trans hindex))
      · simp only [Client.complete, Client.reply?, hreply]
        rfl
      · rw [Client.complete_session]
        rfl
  · next hbroadcast =>
    have hstill : (ClientStep.receive delivery : ClientStep σ η).Yields drawn client.replies
        client := by
      refine h.still hopened fun i other hother => hothers i other hother ?_
      intro request hrequest
      rw [hbroadcast] at hrequest
      cases hrequest
    exact hstill.congr hopened.symm rfl

theorem cancel (index : Nat) :
    (ClientStep.cancel index : ClientStep σ η).Yields drawn client.replies
      (client.cancel index) := by
  have hothers (i : Nat) (other : Reply) (hne : i ≠ index) :
      (ClientStep.cancel index : ClientStep σ η).settlement i other = other.settlement :=
    ClientStep.settlement_eq (if_neg (Ne.symm hne))
  rw [Client.cancel, Client.reply?]
  cases hreply : client.replies[index]? with
  | none =>
      refine h.still hopened fun i other hother => hothers i other ?_
      rintro rfl
      rw [hreply] at hother
      cases hother
  | some reply =>
      dsimp only
      by_cases hsent : reply.settlement = .sent
      · obtain ⟨hcancelled, htold⟩ := Reply.cancel_sent hsent
        rw [htold, if_pos (h.hooked reply (List.mem_of_getElem? hreply) hsent)]
        refine h.settles_one hreply hsent reply.cancel_request ?_ ?_
          (fun i other hne _ => hothers i other hne) rfl ?_
        · rw [hcancelled]
          exact Settlement.noConfusion
        · rw [hcancelled]
          exact (if_pos rfl).symm
        · show client.session.map _ = _
          rw [hopened]
          rfl
      · rw [Reply.cancel_settled hsent, Client.settle_self hreply]
        refine h.still hopened fun i other hother => ?_
        by_cases hsame : i = index
        · subst hsame
          obtain rfl := Option.some.inj (hreply.symm.trans hother)
          exact ClientStep.settlement_of_settled hsent
        · exact hothers i other hsame

/-- When the channel is lost every reply comes to that, unless it had settled before. -/
theorem disconnected_replies :
    client.disconnected.replies =
      client.replies.map fun reply => (reply.complete (.error .notConnected)).1 := by
  rw [Client.disconnected, hopened]
  apply List.ext_getElem?
  intro i
  refine (Client.getElem?_completeAll _ (.error .notConnected) session.pending.toList i).trans ?_
  rw [List.getElem?_map]
  cases hreply : client.replies[i]? with
  | none => rfl
  | some reply =>
      rw [Option.map_some, Option.map_some]
      split
      · rfl
      · next hnot =>
        -- Whatever is not in the table has settled.
        have hsettled : reply.settlement ≠ .sent := by
          intro hsent
          have hpending := h.pending_of_sent hreply hsent
          exact hnot (List.mem_map_of_mem
            (Std.TreeMap.mem_toList_iff_getElem?_eq_some.mpr hpending))
        rw [Reply.complete_settled hsettled]

theorem disconnected :
    (ClientStep.disconnect : ClientStep σ η).Yields drawn client.replies client.disconnected := by
  have hreplies := h.disconnected_replies hopened
  refine ⟨⟨?_, .inl ?_⟩, ?_⟩
  · intro index reply hreply
    rw [hreplies, List.getElem?_map, hreply]
    refine ⟨_, rfl, reply.complete_request _, ?_⟩
    by_cases hsent : reply.settlement = .sent
    · rw [Reply.complete_sent hsent, ClientStep.settlement_of_sent hsent]
      rfl
    · rw [ClientStep.settlement_of_settled hsent]
      exact congrArg (fun completed => completed.1.settlement) (Reply.complete_settled hsent _)
  · rw [hreplies, List.length_map]
  · rw [hreplies, Client.disconnected, hopened]
    exact ⟨_, drawn, Client.completeAll_session _ _ session.pending.toList,
      Nat.le_add_right _ _, fun _ => h.lose rfl rfl⟩

/-- Callbacks leave every reply where it stands. -/
theorem onComplete {index : Nat} {reply : Reply} (hreply : client.replies[index]? = some reply)
    {client' : Client σ η} (honComplete : client.onComplete index reply = .ok client') :
    (ClientStep.onComplete index : ClientStep σ η).Yields drawn client.replies client' := by
  obtain ⟨⟨reply', given⟩, hregister, hclient'⟩ := exists_of_bind_ok honComplete
  obtain rfl : client.settle index reply' given = client' := Except.ok.inj hclient'
  obtain ⟨callback, rfl⟩ := Reply.exists_callback_of_onComplete hregister
  refine ⟨.set hreply rfl (ClientStep.settlement_eq rfl).symm
    fun i other _ _ => ClientStep.settlement_eq rfl, session, drawn, hopened,
    Nat.le_add_right _ _, fun _ => h.register hreply callback⟩

/-! ### One step -/

theorem yields [Channel σ] (hdrawn : drawn < 2 ^ 32) (step : ClientStep σ η) :
    step.Yields drawn client.replies (client.step step) := by
  have hstill (hnone : ∀ index request, step.settling index request = .sent) :
      step.Yields drawn client.replies client :=
    h.still hopened fun index reply _ => ClientStep.settlement_eq (hnone index reply.request)
  cases step with
  | send command =>
      simp only [Client.step, hopened]
      exact h.sendOver hopened hdrawn rfl command
  | subscribe signal subscriber =>
      simp only [Client.step, hopened]
      exact h.subscribe hopened hdrawn rfl signal subscriber
  | unsubscribe subscription =>
      simp only [Client.step, Client.unsubscribe, hopened]
      cases session.broadcasts.unsubscribe subscription with
      | error error => exact hstill fun _ _ => rfl
      | ok broadcasts => exact (hstill fun _ _ => rfl).withSession hopened rfl rfl
  | receive delivery => exact h.receive hopened delivery
  | onComplete index =>
      simp only [Client.step, Client.reply?]
      cases hreply : client.replies[index]? with
      | none => exact hstill fun _ _ => rfl
      | some reply =>
          dsimp only
          cases honComplete : client.onComplete index reply with
          | error error => exact hstill fun _ _ => rfl
          | ok client' => exact h.onComplete hopened hreply honComplete
  | cancel index => exact h.cancel hopened index
  | disconnect => exact h.disconnected hopened
  | channel state => exact (hstill fun _ _ => rfl).congr rfl rfl

end Session.Tracks

/-! ### Runs -/

theorem Client.run_append [Channel σ] (channel : σ) (settings : ClientSettings)
    (steps : List (ClientStep σ η)) (step : ClientStep σ η) :
    run channel settings (steps ++ [step]) = (run channel settings steps).step step := by
  rw [run, List.foldl_append]
  rfl

/-- After a run the session tracks the replies. -/
theorem Client.run_tracks [Channel σ] (channel : σ) (settings : ClientSettings)
    (steps : List (ClientStep σ η)) (hsends : steps.countP ClientStep.sends < 2 ^ 32) :
    ∃ session drawn, (run channel settings steps).session = some session ∧
      drawn ≤ steps.countP ClientStep.sends ∧
      session.Tracks drawn (run channel settings steps).replies := by
  induction steps using List.reverseRecOn with
  | nil => exact ⟨_, 0, rfl, Nat.le_refl 0, .initial settings⟩
  | append_singleton steps step ih =>
      have hcount : (steps ++ [step]).countP ClientStep.sends =
          steps.countP ClientStep.sends + (if step.sends then 1 else 0) := by
        rw [List.countP_append, List.countP_singleton]
      rw [hcount] at hsends ⊢
      obtain ⟨session, drawn, hopened, hdrawn, htracks⟩ := ih (by omega)
      obtain ⟨session', drawn', hopened', hdrawn', htracks'⟩ :=
        (htracks.yields hopened (by omega) step).tracks
      rw [run_append]
      exact ⟨session', drawn', hopened', by omega, htracks' (by omega)⟩

/-- What the session waits for, after any steps of a client over any channel, are exactly the
replies that have not settled. The next step settles what it is about and nothing else: a message
leaves a reply if it is accepted, an answer to a request that nothing waits for changes no reply,
and no reply waits once the channel is lost. -/
theorem Client.pending_run_iff [Channel σ] (channel : σ) (settings : ClientSettings)
    (steps : List (ClientStep σ η)) (hsends : steps.countP ClientStep.sends < 2 ^ 32) :
    let client : Client σ η := run channel settings steps
    ∃ session, client.session = some session ∧
      (∀ request (index : Nat), session.pending[request]? = some index ↔
        ∃ reply, client.replies[index]? = some reply ∧ reply.request = request ∧
          reply.status = .sent) ∧
      (∀ step : ClientStep σ η, step.Affects client.replies (client.step step).replies) ∧
      (∀ command,
        (∃ error, (client.sendOver session command).1 = .error error ∧
          (client.step (.send command)).replies = client.replies) ∨
        (client.sendOver session command).1 = .ok client.replies.length ∧
          (client.step (.send command)).replies =
            client.replies ++ [{ request := session.nextRequest, hooked := true }]) ∧
      (∀ delivery, (∀ request ∈ delivery.request, request ∉ session.pending) →
        (client.step (.receive delivery)).replies = client.replies) ∧
      (∀ reply ∈ (client.step .disconnect).replies, reply.status ≠ .sent) := by
  intro client
  obtain ⟨session, drawn, hopened, hdrawn, htracks⟩ := run_tracks channel settings steps hsends
  refine ⟨session, hopened, ?_, ?_, ?_, ?_, ?_⟩
  · simp only [Reply.status_eq_sent_iff]
    exact htracks.waiting
  · intro step
    exact (htracks.yields hopened (by omega) step).affects
  · intro command
    have hstep : client.step (.send command) = (client.sendOver session command).2 := by
      simp only [step, client, hopened]
    rw [hstep]
    rcases client.sendOver_cases session command with
      ⟨error, hsend⟩ | ⟨error, channel', hsend⟩ | ⟨channel', hsend⟩
    · exact .inl ⟨error, by rw [hsend], by rw [hsend]⟩
    · exact .inl ⟨error, by rw [hsend], by rw [hsend]⟩
    · exact .inr ⟨by rw [hsend], by rw [hsend]⟩
  · intro delivery hunknown
    have hnone {request : UInt32} (hrequest : delivery.request = some request) :
        session.pending[request]? = none :=
      Std.TreeMap.getElem?_eq_none (hunknown request hrequest)
    simp only [step, receive, client, hopened]
    split
    · next request hrequest => rw [hnone hrequest]
    · rfl
  · intro reply' hreply'
    rw [ne_eq, Reply.status_eq_sent_iff]
    change reply' ∈ client.disconnected.replies at hreply'
    rw [htracks.disconnected_replies hopened] at hreply'
    obtain ⟨reply, -, rfl⟩ := List.mem_map.mp hreply'
    exact reply.complete_settles _

/-- Three messages leave and one is refused. The second is answered twice, the first is cancelled
and answered too late, and somebody answers a message that never was. -/
def Client.errands : List (ClientStep Outbox Nat) :=
  let list : Command := Request.collectionCommand .list [.string "Playlists"]
  [.send list, .send list, .onComplete 1, .channel { refusal := some .queueFull }, .send list,
    .receive (.reply 2 0 (.ok .none)), .receive (.reply 2 0 (.error .notConnected)), .cancel 0,
    .receive (.reply 1 0 (.ok .none)), .receive (.reply 9 0 (.ok .none)),
    .subscribe .collectionChanged 5]

/-- Only the subscription is waited for in the end. -/
theorem Client.pending_run_iff_errands :
    errands.countP ClientStep.sends < 2 ^ 32 ∧
    (run ({} : Outbox) {} errands).replies.map Reply.status = [.cancelled, .completed, .sent] ∧
    ∃ session, (run ({} : Outbox) {} errands).session = some session ∧
      ∀ request (index : Nat), session.pending[request]? = some index ↔
        ∃ reply, (run ({} : Outbox) {} errands).replies[index]? = some reply ∧
          reply.request = request ∧ reply.status = .sent := by
  have hcount : errands.countP ClientStep.sends = 4 := rfl
  have hsends : errands.countP ClientStep.sends < 2 ^ 32 := by simp [hcount]
  obtain ⟨session, hopened, hpending, -⟩ := pending_run_iff ({} : Outbox) {} errands hsends
  exact ⟨hsends, by decide, session, hopened, hpending⟩

end MediaCatalog
