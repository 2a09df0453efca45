import MediaCatalog.Proofs.Client.Replies
import MediaCatalog.Proofs.Network.Ledger
import MediaCatalog.Proofs.Network.Turn

/-!
Bookkeeping of a client. A client whose link stays open keeps to the ledger: its queue holds what
waits, and it has one reply for each accepted message. As long as request numbers do not come
back, it also knows which of its replies wait, and each reply settles as the ledger has it.
-/

namespace MediaCatalog

variable {η : Type}

/-- Where the reply at a position stands. -/
def Ledger.settlement (ledger : Ledger) (answers : List Delivery) (reply : Nat) : Settlement :=
  if reply ∈ ledger.withdrawn then .cancelled
  else
    match answers[reply]? with
    | some answer => .result answer.outcome
    | none => .sent

/-- A reply waits unless it was cancelled or its message answered. -/
theorem Ledger.settlement_eq_sent_iff {ledger : Ledger} {answers : List Delivery} {reply : Nat} :
    ledger.settlement answers reply = .sent ↔
      reply ∉ ledger.withdrawn ∧ answers.length ≤ reply := by
  rw [settlement]
  by_cases hwithdrawn : reply ∈ ledger.withdrawn
  · simp [hwithdrawn]
  · rw [if_neg hwithdrawn]
    cases hanswer : answers[reply]? with
    | none => simpa [hwithdrawn] using List.getElem?_eq_none_iff.mp hanswer
    | some answer =>
        obtain ⟨hlength, -⟩ := List.getElem?_eq_some_iff.mp hanswer
        simp [hlength]

/-- One more answer settles only the reply that it is for. -/
theorem Ledger.settlement_append {ledger : Ledger} {answers : List Delivery} {reply : Nat}
    (hother : reply ≠ answers.length) (answer : Delivery) :
    ledger.settlement (answers ++ [answer]) reply = ledger.settlement answers reply := by
  have hsame : (answers ++ [answer])[reply]? = answers[reply]? := by
    ext found
    rw [getElem?_append_singleton]
    simp [hother]
  rw [settlement, settlement, hsame]

/-- Queue, session and replies of the client are those of the ledger. -/
structure Keeps (settings : ClientSettings) (ledger : Ledger) (client : LinkedClient η)
    (session : Session η) : Prop where
  opened : client.session = some session
  configured : client.channel.settings = settings
  connected : client.channel.connected = true
  queue : client.channel.queue =
    ledger.waiting.map fun posting => client.channel.frame posting.message
  sent : client.channel.sent = ledger.accepted.length
  nextRequest : session.nextRequest = UInt32.ofNat (ledger.drawn + 1)
  requested : session.requested = ledger.requested
  requests : client.replies.map Reply.request =
    ledger.accepted.map fun posting => posting.message.request

/-- The session knows which replies wait, and every reply stands where the ledger has it. -/
structure Resolves (ledger : Ledger) (answers : List Delivery) (client : LinkedClient η)
    (session : Session η) : Prop where
  pending : ∀ request index, session.pending[request]? = some index ↔
    ∃ posting, ledger.accepted[index]? = some posting ∧ posting.message.request = request ∧
      ledger.answered ≤ index ∧ index ∉ ledger.withdrawn
  settled : ∀ (i : Nat) reply, client.replies[i]? = some reply →
    reply.settlement = ledger.settlement answers i
  hooked : ∀ (i : Nat) reply, client.replies[i]? = some reply → reply.settlement = .sent →
    reply.hooked = true

variable {settings : ClientSettings} {ledger : Ledger} {answers : List Delivery}
  {client : LinkedClient η} {session : Session η}

/-- Only the replies of the client matter. -/
theorem Resolves.of_replies (h : Resolves ledger answers client session)
    {client' : LinkedClient η} (hsame : client'.replies = client.replies) :
    Resolves ledger answers client' session := by
  obtain ⟨hpending, hsettled, hhooked⟩ := h
  rw [← hsame] at hsettled hhooked
  exact ⟨hpending, hsettled, hhooked⟩

theorem Keeps.create (settings : ClientSettings) :
    Keeps settings {} (Client.create { settings } settings : LinkedClient η)
      (Session.open settings) :=
  ⟨rfl, rfl, rfl, rfl, rfl, rfl, rfl, rfl⟩

theorem Resolves.create (settings : ClientSettings) :
    Resolves {} [] (Client.create { settings } settings : LinkedClient η)
      (Session.open settings) where
  pending request index := by simp [Session.open]
  settled i reply hreply := by simp [Client.create] at hreply
  hooked i reply hreply := by simp [Client.create] at hreply

/-! ### Sending -/

section Sending

variable (h : Keeps settings ledger client session) (command : Command)
include h

theorem Keeps.length_replies : client.replies.length = ledger.accepted.length := by
  simpa using congrArg List.length h.requests

/-- The message that a command is sent as. -/
theorem Keeps.message_eq :
    (⟨session.nextRequest, command.object, command.number, command.args⟩ : Message) =
      (⟨ledger.drawn + 1, command⟩ : Posting).message := by
  rw [h.nextRequest]
  rfl

/-- With room in the queue the message is accepted. -/
theorem Keeps.sendOver_room (hroom : ledger.waiting.length < max settings.capacity 1) :
    client.sendOver session command =
      (.ok ledger.accepted.length,
        { client with
          channel := { client.channel with
            queue := client.channel.queue ++
              [client.channel.frame (⟨ledger.drawn + 1, command⟩ : Posting).message]
            sent := client.channel.sent + 1 }
          session := some { session with
            nextRequest := session.nextRequest + 1
            pending := session.pending.insert session.nextRequest client.replies.length }
          replies := client.replies ++ [{ request := session.nextRequest, hooked := true }] }) := by
  have hlength : client.channel.queue.length < max client.channel.settings.capacity 1 := by
    rw [h.queue, List.length_map, h.configured]
    exact hroom
  rw [Client.sendOver]
  simp only [Client.isConnected, Channel.isConnected, Channel.send, h.connected, h.message_eq,
    Bool.not_true, Bool.false_eq_true, if_false, if_neg (Nat.not_le.mpr hlength), h.length_replies]

/-- A full queue refuses the message, and no reply is left. -/
theorem Keeps.sendOver_full (hfull : max settings.capacity 1 ≤ ledger.waiting.length) :
    client.sendOver session command =
      (.error .queueFull,
        { client with
          session := some { session with
            nextRequest := session.nextRequest + 1
            pending := (session.pending.insert session.nextRequest client.replies.length).erase
              session.nextRequest } }) := by
  have hlength : max client.channel.settings.capacity 1 ≤ client.channel.queue.length := by
    rw [h.queue, List.length_map, h.configured]
    exact hfull
  rw [Client.sendOver]
  simp only [Client.isConnected, Channel.isConnected, Channel.send, h.connected,
    Bool.not_true, Bool.false_eq_true, if_false, if_pos hlength]

/-- The client is told what the ledger says. -/
theorem Keeps.sendOver_fst :
    (client.sendOver session command).1 =
      if (ledger.post settings.capacity command).1 then .ok ledger.accepted.length
      else .error .queueFull := by
  rw [Ledger.post]
  split
  · next hroom => rw [h.sendOver_room command hroom, if_pos rfl]
  · next hfull =>
    rw [h.sendOver_full command (Nat.not_lt.mp hfull)]
    rfl

theorem Keeps.nextRequest_succ : session.nextRequest + 1 = UInt32.ofNat (ledger.drawn + 1 + 1) := by
  rw [h.nextRequest, UInt32.ofNat_add (ledger.drawn + 1) 1]
  rfl

theorem Keeps.accepted (hvalid : ledger.Valid)
    (hroom : ledger.waiting.length < max settings.capacity 1) :
    Keeps settings (ledger.accept command) (client.sendOver session command).2
      { session with
        nextRequest := session.nextRequest + 1
        pending := session.pending.insert session.nextRequest client.replies.length } := by
  rw [h.sendOver_room command hroom]
  refine ⟨rfl, h.configured, h.connected, ?_, ?_, h.nextRequest_succ, h.requested, ?_⟩
  · rw [hvalid.waiting_accept, List.map_append, h.queue]
    rfl
  · simp only [h.sent, Ledger.accept, List.length_append, List.length_singleton]
  · simp only [Ledger.accept, List.map_append, h.requests, h.nextRequest]
    rfl

theorem Keeps.refused (hfull : max settings.capacity 1 ≤ ledger.waiting.length) :
    Keeps settings ledger.refuse (client.sendOver session command).2
      { session with
        nextRequest := session.nextRequest + 1
        pending := (session.pending.insert session.nextRequest client.replies.length).erase
          session.nextRequest } := by
  rw [h.sendOver_full command hfull]
  exact ⟨rfl, h.configured, h.connected, h.queue, h.sent, h.nextRequest_succ, h.requested,
    h.requests⟩

variable (hvalid : ledger.Valid)
include hvalid

/-- A number that comes back late is not the request of a message that waits. -/
theorem Keeps.nextRequest_ne {posting : Posting} (hwaiting : posting ∈ ledger.waiting)
    (hnear : ledger.drawn + 1 < posting.number + 2 ^ 32) :
    posting.message.request ≠ session.nextRequest := by
  rw [h.nextRequest]
  exact Ledger.ofNat_ne (hvalid.lt_of_waiting hwaiting) hnear

variable (hresolves : Resolves ledger answers client session)
include hresolves

/-- What waits for the new request is the new reply; what waited before has other requests. -/
theorem Resolves.pending_accepted (htimely : (ledger.accept command).Timely) (request : UInt32)
    (index : Nat) :
    (session.pending.insert session.nextRequest client.replies.length)[request]? = some index ↔
      ∃ posting, (ledger.accept command).accepted[index]? = some posting ∧
        posting.message.request = request ∧ ledger.answered ≤ index ∧
        index ∉ ledger.withdrawn := by
  have hlength := h.length_replies
  have hne {index : Nat} {posting : Posting} (hposting : ledger.accepted[index]? = some posting)
      (hwaiting : ledger.answered ≤ index) : posting.message.request ≠ session.nextRequest := by
    have hmem := Ledger.mem_waiting hposting hwaiting
    refine h.nextRequest_ne hvalid hmem (htimely posting ?_)
    rw [hvalid.waiting_accept]
    exact List.mem_append_left _ hmem
  have hlast : (⟨ledger.drawn + 1, command⟩ : Posting).message.request = session.nextRequest :=
    h.nextRequest.symm
  rw [Std.TreeMap.getElem?_insert]
  simp only [Std.compare_eq_iff_eq, Ledger.accept, getElem?_append_singleton]
  split
  · next hsame =>
    constructor
    · intro hindex
      obtain rfl := Option.some.inj hindex
      refine ⟨_, .inr ⟨hlength, rfl⟩, hlast.trans hsame, ?_, fun hwithdrawn => ?_⟩
      · rw [hlength]
        exact hvalid.answered_le
      · have hlt := hvalid.withdrawn_lt _ hwithdrawn
        omega
    · rintro ⟨posting, hold | ⟨rfl, rfl⟩, hrequest, hwaiting, -⟩
      · exact absurd (hrequest.trans hsame.symm) (hne hold hwaiting)
      · rw [hlength]
  · next hother =>
    rw [hresolves.pending]
    constructor
    · rintro ⟨posting, hposting, hrest⟩
      exact ⟨posting, .inl hposting, hrest⟩
    · rintro ⟨posting, hold | ⟨rfl, rfl⟩, hrequest, hrest⟩
      · exact ⟨posting, hold, hrequest, hrest⟩
      · exact absurd (hlast.symm.trans hrequest) hother

theorem Resolves.accepted (hanswers : answers.length = ledger.answered)
    (hroom : ledger.waiting.length < max settings.capacity 1)
    (htimely : (ledger.accept command).Timely) :
    Resolves (ledger.accept command) answers (client.sendOver session command).2
      { session with
        nextRequest := session.nextRequest + 1
        pending := session.pending.insert session.nextRequest client.replies.length } := by
  have hlength := h.length_replies
  rw [h.sendOver_room command hroom]
  refine ⟨Resolves.pending_accepted h command hvalid hresolves htimely,
    fun i reply hreply => ?_, fun i reply hreply hsent => ?_⟩
  · rcases getElem?_append_singleton.mp hreply with hold | ⟨rfl, rfl⟩
    · exact hresolves.settled i reply hold
    · -- Nothing was heard of the new message yet.
      have hwithdrawn : client.replies.length ∉ ledger.withdrawn := by
        intro hmem
        have hlt := hvalid.withdrawn_lt _ hmem
        omega
      have hnone : answers[client.replies.length]? = none := by
        have hle := hvalid.answered_le
        exact List.getElem?_eq_none (by omega)
      simp only [Ledger.settlement, Ledger.accept, if_neg hwithdrawn, hnone]
  · rcases getElem?_append_singleton.mp hreply with hold | ⟨rfl, rfl⟩
    · exact hresolves.hooked i reply hold hsent
    · rfl

theorem Resolves.refused (hfull : max settings.capacity 1 ≤ ledger.waiting.length)
    (htimely : ledger.refuse.Timely) :
    Resolves ledger.refuse answers (client.sendOver session command).2
      { session with
        nextRequest := session.nextRequest + 1
        pending := (session.pending.insert session.nextRequest client.replies.length).erase
          session.nextRequest } := by
  rw [h.sendOver_full command hfull]
  refine ⟨?_, hresolves.settled, hresolves.hooked⟩
  intro request index
  rw [Std.TreeMap.getElem?_erase, Std.TreeMap.getElem?_insert]
  simp only [Std.compare_eq_iff_eq]
  split
  · next hsame =>
    constructor
    · intro hnone
      cases hnone
    · rintro ⟨posting, hposting, hrequest, hwaiting, -⟩
      have hmem := Ledger.mem_waiting hposting hwaiting
      exact absurd (hrequest.trans hsame.symm)
        (h.nextRequest_ne hvalid hmem (htimely posting hmem))
  · exact hresolves.pending request index

end Sending

/-- The client goes on keeping to the ledger, and its replies to resolving as the ledger has it,
provided request numbers do not come back. -/
def Follows (settings : ClientSettings) (ledger : Ledger) (answers : List Delivery)
    (client : LinkedClient η) (session : Session η) (ledger' : Ledger)
    (client' : LinkedClient η) (session' : Session η) : Prop :=
  Keeps settings ledger' client' session' ∧
    (Resolves ledger answers client session → ledger'.Timely →
      Resolves ledger' answers client' session')

section Acting

variable (h : Keeps settings ledger client session) (hvalid : ledger.Valid)
  (hanswers : answers.length = ledger.answered)
include h hvalid hanswers

theorem Keeps.post (command : Command) :
    ∃ session', Follows settings ledger answers client session
      (ledger.post settings.capacity command).2 (client.sendOver session command).2 session' := by
  rw [Ledger.post]
  split
  · next hroom =>
    exact ⟨_, h.accepted command hvalid hroom, fun hresolves htimely =>
      Resolves.accepted h command hvalid hresolves hanswers hroom htimely⟩
  · next hfull =>
    rw [Nat.not_lt] at hfull
    exact ⟨_, h.refused command hfull, fun hresolves htimely =>
      Resolves.refused h command hvalid hresolves hfull htimely⟩

end Acting

/-! ### Subscribing -/

/-- Subscriptions do not concern requests. -/
theorem Follows.attached {ledger' : Ledger} {client' : LinkedClient η} {session' : Session η}
    (h : Follows settings ledger answers client session ledger' client' session')
    (requested : List UInt32) (broadcasts : Registry Empty η Empty) :
    Follows settings ledger answers client session { ledger' with requested }
      { client' with session := some { session' with requested, broadcasts } }
      { session' with requested, broadcasts } := by
  obtain ⟨hkeeps, hresolves⟩ := h
  refine ⟨⟨rfl, hkeeps.configured, hkeeps.connected, hkeeps.queue, hkeeps.sent,
    hkeeps.nextRequest, rfl, hkeeps.requests⟩, fun hbefore htimely => ?_⟩
  obtain ⟨hpending, hsettled, hhooked⟩ := hresolves hbefore htimely
  exact ⟨hpending, hsettled, hhooked⟩

theorem Keeps.subscribe (h : Keeps settings ledger client session) (hvalid : ledger.Valid)
    (hanswers : answers.length = ledger.answered) (signal : SignalKind) (subscriber : η) :
    ∃ session', Follows settings ledger answers client session
      (ledger.step settings.capacity (.subscribe signal subscriber))
      (client.subscribe session signal subscriber).2 session' := by
  have hconnected : client.isConnected = true := h.connected
  rw [Client.subscribe]
  simp only [hconnected, Bool.not_true, Bool.false_eq_true, if_false, Ledger.step, h.requested]
  split
  · -- The signal was asked for before, so nothing is sent.
    have hsame : Follows settings ledger answers client session ledger client session :=
      ⟨h, fun hresolves _ => hresolves⟩
    have hattached := hsame.attached session.requested
      (session.broadcasts.connect signal.number subscriber none).2
    have hledger : { ledger with requested := session.requested } = ledger := by
      rw [h.requested]
    rw [hledger] at hattached
    exact ⟨_, hattached⟩
  · obtain ⟨session', hfollows⟩ := h.post hvalid hanswers (Ledger.forwarding signal)
    have houtcome := h.sendOver_fst (Ledger.forwarding signal)
    have hopened := hfollows.1.opened
    have hrequested := hfollows.1.requested
    rw [Ledger.forwarding] at hfollows houtcome hopened hrequested ⊢
    generalize client.sendOver session _ = result at hfollows houtcome hopened hrequested ⊢
    generalize ledger.post settings.capacity _ = posted at hfollows houtcome hrequested ⊢
    obtain ⟨outcome, client'⟩ := result
    obtain ⟨accepted, ledger'⟩ := posted
    cases accepted with
    | false =>
        obtain rfl : outcome = .error .queueFull := houtcome
        exact ⟨session', hfollows⟩
    | true =>
        obtain rfl : outcome = .ok ledger.accepted.length := houtcome
        dsimp only at hopened hrequested ⊢
        rw [hopened, if_pos rfl, ← hrequested]
        exact ⟨_, hfollows.attached (signal.number :: session'.requested)
          (session'.broadcasts.connect signal.number subscriber none).2⟩

end MediaCatalog
