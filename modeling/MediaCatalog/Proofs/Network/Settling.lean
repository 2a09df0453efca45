import MediaCatalog.Proofs.Network.Bookkeeping

/-!
Replies and the ledger. A callback leaves every reply where it stands. A cancel settles a reply
that waits, and an answer settles the oldest one unless it was cancelled before; nothing else
settles one. So each reply that is not cancelled in time gets the answer to its own message.
-/

namespace MediaCatalog

variable {η : Type} {settings : ClientSettings} {ledger : Ledger} {answers : List Delivery}
  {client : LinkedClient η} {session : Session η}

/-! ### Replies -/

theorem Keeps.settle (h : Keeps settings ledger client session) {index : Nat}
    {reply reply' : Reply} (hreply : client.replies[index]? = some reply)
    (hsame : reply'.request = reply.request) (callback : Option (Except Error Value)) :
    Keeps settings ledger (client.settle index reply' callback) session :=
  ⟨h.opened, h.configured, h.connected, h.queue, h.sent, h.nextRequest, h.requested,
    (requests_settle hreply hsame callback).trans h.requests⟩

/-- The request of a reply is that of its message. -/
theorem Keeps.exists_posting (h : Keeps settings ledger client session) {index : Nat}
    {reply : Reply} (hreply : client.replies[index]? = some reply) :
    ∃ posting, ledger.accepted[index]? = some posting ∧
      posting.message.request = reply.request := by
  have hrequests := congrArg (fun requests => requests[index]?) h.requests
  simp only [List.getElem?_map, hreply, Option.map_some] at hrequests
  obtain ⟨posting, hposting, hrequest⟩ := Option.map_eq_some_iff.mp hrequests.symm
  exact ⟨posting, hposting, hrequest⟩

theorem Keeps.exists_reply (h : Keeps settings ledger client session) {index : Nat}
    (hindex : index < ledger.accepted.length) :
    ∃ reply, client.replies[index]? = some reply :=
  ⟨_, List.getElem?_eq_getElem (h.length_replies ▸ hindex)⟩

/-- Callbacks are not part of the accounts. -/
theorem Keeps.onComplete (h : Keeps settings ledger client session) (answers : List Delivery)
    {index : Nat} {reply : Reply} (hreply : client.replies[index]? = some reply)
    {client' : LinkedClient η} (honComplete : client.onComplete index reply = .ok client') :
    Follows settings ledger answers client session ledger client' session := by
  obtain ⟨⟨reply', callback⟩, hregister, hclient'⟩ := exists_of_bind_ok honComplete
  obtain rfl : client.settle index reply' callback = client' := Except.ok.inj hclient'
  obtain ⟨registered, rfl⟩ := Reply.exists_callback_of_onComplete hregister
  have hrequest : { reply with callback := registered }.request = reply.request := rfl
  refine ⟨h.settle hreply hrequest callback, fun hresolves _ => ⟨hresolves.pending, ?_, ?_⟩⟩
  · intro i found hfound
    rcases getElem?_settle hreply callback hfound with ⟨rfl, rfl⟩ | ⟨-, hfound⟩
    · exact hresolves.settled i reply hreply
    · exact hresolves.settled i found hfound
  · intro i found hfound hsent
    rcases getElem?_settle hreply callback hfound with ⟨rfl, rfl⟩ | ⟨-, hfound⟩
    · exact hresolves.hooked i reply hreply hsent
    · exact hresolves.hooked i found hfound hsent

/-! ### Settling one reply -/

/-- The client with another session. -/
def Client.withSession (client : LinkedClient η) (session : Session η) : LinkedClient η :=
  { client with session := some session }

theorem Keeps.forget (h : Keeps settings ledger client session) (request : UInt32) :
    Keeps settings ledger (client.withSession (session.forget request))
      (session.forget request) :=
  ⟨rfl, h.configured, h.connected, h.queue, h.sent, h.nextRequest, h.requested, h.requests⟩

/-- One reply settles and its request is forgotten, and the others go on waiting. -/
theorem Resolves.settle (h : Resolves ledger answers client session) (hvalid : ledger.Valid)
    (htimely : ledger.Timely) {ledger' : Ledger} {answers' : List Delivery} {index : Nat}
    {reply reply' : Reply} {posting : Posting} (hreply : client.replies[index]? = some reply)
    (hposting : ledger.accepted[index]? = some posting) (hwaiting : ledger.answered ≤ index)
    (hsettled : reply'.settlement ≠ .sent)
    (hstands : reply'.settlement = ledger'.settlement answers' index)
    (haccepted : ledger'.accepted = ledger.accepted)
    (hopen : ∀ i, ledger'.answered ≤ i ∧ i ∉ ledger'.withdrawn ↔
      ledger.answered ≤ i ∧ i ∉ ledger.withdrawn ∧ i ≠ index)
    (hothers : ∀ i, i ≠ index → ledger'.settlement answers' i = ledger.settlement answers i)
    {callback : Option (Except Error Value)} :
    Resolves ledger' answers' (client.settle index reply' callback)
      (session.forget posting.message.request) := by
  refine ⟨fun request i => ?_, fun i found hfound => ?_, fun i found hfound hstill => ?_⟩
  · rw [Session.forget, Std.TreeMap.getElem?_erase, haccepted]
    simp only [Std.compare_eq_iff_eq, hopen]
    split
    · next hsame =>
      -- Whatever else waits has another request.
      constructor
      · intro hnone
        cases hnone
      · rintro ⟨posting', hposting', hrequest, hwaiting', -, hother⟩
        exact absurd (hvalid.eq_of_request_eq htimely hposting' hposting hwaiting' hwaiting
          (hrequest.trans hsame.symm)) hother
    · next hdiffers =>
      rw [h.pending]
      constructor
      · rintro ⟨posting', hposting', hrequest, hwaiting', hnot⟩
        refine ⟨posting', hposting', hrequest, hwaiting', hnot, ?_⟩
        rintro rfl
        obtain rfl := Option.some.inj (hposting'.symm.trans hposting)
        exact hdiffers hrequest
      · rintro ⟨posting', hposting', hrequest, hwaiting', hnot, -⟩
        exact ⟨posting', hposting', hrequest, hwaiting', hnot⟩
  · rcases getElem?_settle hreply callback hfound with ⟨rfl, rfl⟩ | ⟨hother, hfound⟩
    · exact hstands
    · rw [hothers i hother]
      exact h.settled i found hfound
  · rcases getElem?_settle hreply callback hfound with ⟨rfl, rfl⟩ | ⟨-, hfound⟩
    · exact absurd hstill hsettled
    · exact h.hooked i found hfound hstill

/-! ### Cancelling -/

/-- Cancelling one reply leaves the others where they stand. -/
theorem Ledger.settlement_withdraw {reply other : Nat} (hother : other ≠ reply) :
    (ledger.withdraw reply).settlement answers other = ledger.settlement answers other := by
  simp only [settlement, withdraw, List.mem_cons, hother, false_or]

/-- Cancelling twice is cancelling once. -/
theorem Resolves.withdraw_again (h : Resolves ledger answers client session) {index : Nat}
    (hwithdrawn : index ∈ ledger.withdrawn) :
    Resolves (ledger.withdraw index) answers client session := by
  have hmem (i : Nat) : i ∈ (ledger.withdraw index).withdrawn ↔ i ∈ ledger.withdrawn := by
    rw [Ledger.withdraw, List.mem_cons, or_iff_right_of_imp fun hsame => hsame ▸ hwithdrawn]
  refine ⟨fun request i => ?_, fun i reply hreply => ?_, h.hooked⟩
  · rw [h.pending, hmem]
    rfl
  · rw [h.settled i reply hreply, Ledger.settlement, Ledger.settlement]
    simp only [hmem]

/-- The session forgets the request of a reply that is cancelled while it waits. -/
theorem Resolves.withdraw (h : Resolves ledger answers client session) (hvalid : ledger.Valid)
    (htimely : ledger.Timely) {index : Nat} {reply : Reply} {posting : Posting}
    (hreply : client.replies[index]? = some reply)
    (hposting : ledger.accepted[index]? = some posting) (hwaiting : ledger.answered ≤ index)
    (hsent : reply.settlement = .sent) :
    Resolves (ledger.withdraw index) answers (client.settle index reply.cancel.1 none)
      (session.forget posting.message.request) := by
  have hcancelled : reply.cancel.1.settlement = .cancelled := by
    rw [Reply.cancel, hsent]
  refine h.settle hvalid htimely hreply hposting hwaiting ?_ ?_ ?_ (fun i => ?_)
    fun i hother => Ledger.settlement_withdraw hother
  · rw [hcancelled]
    exact Settlement.noConfusion
  · rw [hcancelled, Ledger.settlement, Ledger.withdraw, if_pos List.mem_cons_self]
  · rfl
  · simp only [Ledger.withdraw, List.mem_cons, not_or]
    exact and_congr_right fun _ => and_comm

section Cancelling

variable (h : Keeps settings ledger client session) (capacity : Nat)
include h

/-- Cancels concern the replies alone. -/
theorem Keeps.step_cancel (index : Nat) :
    Keeps settings (ledger.step (η := η) capacity (.cancel index)) client session := by
  simp only [Ledger.step]
  split
  · exact ⟨h.opened, h.configured, h.connected, h.queue, h.sent, h.nextRequest, h.requested,
      h.requests⟩
  · exact h

variable (hanswers : answers.length = ledger.answered) {index : Nat} {reply : Reply}
  (hreply : client.replies[index]? = some reply)
include hanswers hreply

/-- If the owner is told, the reply waited, and so does its message. -/
theorem Keeps.cancel_told (hvalid : ledger.Valid) (htold : reply.cancel.2 = true) :
    ∃ session', Follows settings ledger answers client session
      (ledger.step (η := η) capacity (.cancel index))
      ((client.settle index reply.cancel.1 none).modifySession fun session =>
        { session with pending := session.pending.erase reply.request }) session' := by
  have hsettled := h.settle hreply reply.cancel_request none
  obtain ⟨posting, hposting, hrequest⟩ := h.exists_posting hreply
  have hforgets : (client.settle index reply.cancel.1 none).modifySession
      (fun session => { session with pending := session.pending.erase reply.request }) =
        (client.settle index reply.cancel.1 none).withSession
          (session.forget posting.message.request) := by
    rw [Client.modifySession, hsettled.opened, hrequest]
    rfl
  rw [hforgets]
  refine ⟨_, (hsettled.forget _).step_cancel capacity index, fun hresolves htimely => ?_⟩
  have hsent : reply.settlement = .sent := by
    by_contra hstill
    rw [Reply.cancel_settled hstill] at htold
    cases htold
  have hstands := (hresolves.settled index reply hreply).symm.trans hsent
  have hwaiting := hanswers ▸ (Ledger.settlement_eq_sent_iff.mp hstands).2
  have hindex := h.length_replies ▸ (List.getElem?_eq_some_iff.mp hreply).1
  simp only [Ledger.step, if_pos (And.intro hwaiting hindex)] at htimely ⊢
  exact (hresolves.withdraw hvalid htimely hreply hposting hwaiting hsent).of_replies rfl

/-- If nobody is told, the reply had settled before and stays as it is. -/
theorem Keeps.cancel_untold (htold : reply.cancel.2 = false) :
    Follows settings ledger answers client session (ledger.step (η := η) capacity (.cancel index))
      (client.settle index reply.cancel.1 none) session := by
  refine ⟨(h.settle hreply reply.cancel_request none).step_cancel capacity index,
    fun hresolves _ => ?_⟩
  have hstill : reply.settlement ≠ .sent := by
    intro hsent
    rw [Reply.cancel, hsent] at htold
    have hunhooked : reply.hooked = false := htold
    rw [hresolves.hooked index reply hreply hsent] at hunhooked
    cases hunhooked
  rw [Reply.cancel_settled hstill, Client.settle_self hreply]
  simp only [Ledger.step]
  split
  · next hindex =>
    -- What was neither answered nor cancelled would wait.
    have hwithdrawn : index ∈ ledger.withdrawn := by
      by_contra hnot
      have hstands := Ledger.settlement_eq_sent_iff.mpr ⟨hnot, hanswers ▸ hindex.1⟩
      exact hstill ((hresolves.settled index reply hreply).trans hstands)
    exact hresolves.withdraw_again hwithdrawn
  · exact hresolves

end Cancelling

/-- A cancel settles the reply if it waits, and does nothing otherwise. -/
theorem Keeps.cancel (h : Keeps settings ledger client session) (hvalid : ledger.Valid)
    (hanswers : answers.length = ledger.answered) (capacity index : Nat) :
    ∃ session', Follows settings ledger answers client session
      (ledger.step (η := η) capacity (.cancel index)) (client.cancel index) session' := by
  rw [Client.cancel]
  cases hreply : client.reply? index with
  | none =>
      have hbeyond : ¬ (ledger.answered ≤ index ∧ index < ledger.accepted.length) := by
        rintro ⟨-, hindex⟩
        obtain ⟨reply, hfound⟩ := h.exists_reply hindex
        rw [Client.reply?, hfound] at hreply
        cases hreply
      refine ⟨session, h.step_cancel capacity index, fun hresolves _ => ?_⟩
      simpa only [Ledger.step, if_neg hbeyond] using hresolves
  | some reply =>
      dsimp only
      split
      · next htold => exact h.cancel_told capacity hanswers hreply hvalid htold
      · next htold =>
        rw [Bool.not_eq_true] at htold
        exact ⟨session, h.cancel_untold capacity hanswers hreply htold⟩

/-! ### Receiving -/

section Receiving

variable {client' : LinkedClient η} {delivery : Delivery} {posting : Posting}
  {waiting : List Posting}

theorem Keeps.overheard (h : Keeps settings ledger client session)
    (hoverhears : client.Overhears client') : Keeps settings ledger client' session := by
  obtain ⟨events, forwarded, rfl⟩ := hoverhears
  exact ⟨h.opened, h.configured, h.connected, h.queue, h.sent, h.nextRequest, h.requested,
    h.requests⟩

theorem Client.Overhears.replies_eq (h : client.Overhears client') :
    client'.replies = client.replies := by
  obtain ⟨events, forwarded, rfl⟩ := h
  rfl

/-- Taking the oldest frame from the queue answers the oldest message. -/
theorem Keeps.dequeue (h : Keeps settings ledger client session)
    (hwaiting : ledger.waiting = posting :: waiting) (capacity : Nat) :
    Keeps settings (ledger.step (η := η) capacity .read)
      (client.withQueue (waiting.map fun posting => client.channel.frame posting.message))
      session := by
  refine ⟨h.opened, h.configured, h.connected, ?_, h.sent, h.nextRequest, h.requested, h.requests⟩
  rw [Ledger.waiting_read hwaiting]
  rfl

/-- An answer to a request that waits completes its reply, any other is dropped. -/
theorem Client.receive_reply (hopened : client.session = some session) {request : UInt32}
    (hrequest : delivery.request = some request) :
    client.receive delivery =
      match session.pending[request]? with
      | none => client
      | some index =>
        (client.withSession (session.forget request)).complete index delivery.outcome := by
  cases hpending : session.pending[request]? with
  | none => simp only [Client.receive, hopened, hrequest, hpending]
  | some index =>
      simp only [Client.receive, hopened, hrequest, hpending]
      rfl

/-- Among what waits, only the oldest message has its request. -/
theorem Resolves.pending_oldest (h : Resolves ledger answers client session)
    (hvalid : ledger.Valid) (htimely : ledger.Timely)
    (hwaiting : ledger.waiting = posting :: waiting) {index : Nat} :
    session.pending[posting.message.request]? = some index ↔
      index = ledger.answered ∧ ledger.answered ∉ ledger.withdrawn := by
  have holdest := Ledger.getElem?_answered hwaiting
  rw [h.pending]
  constructor
  · rintro ⟨posting', hposting', hrequest, hindex, hnot⟩
    obtain rfl := hvalid.eq_of_request_eq htimely hposting' holdest hindex le_rfl hrequest
    exact ⟨rfl, hnot⟩
  · rintro ⟨rfl, hnot⟩
    exact ⟨posting, holdest, rfl, le_rfl, hnot⟩

/-- The answer to a message whose reply was cancelled settles nothing. -/
theorem Resolves.read_withdrawn (h : Resolves ledger answers client session)
    (hanswers : answers.length = ledger.answered)
    (hwaiting : ledger.waiting = posting :: waiting)
    (hwithdrawn : ledger.answered ∈ ledger.withdrawn) (capacity : Nat) :
    Resolves (ledger.step (η := η) capacity .read) (answers ++ [delivery]) client session := by
  refine ⟨fun request index => ?_, fun i reply hreply => ?_, h.hooked⟩
  · rw [h.pending, Ledger.answered_read hwaiting]
    constructor
    · rintro ⟨posting', hposting', hrequest, hindex, hnot⟩
      have hne : index ≠ ledger.answered := fun hsame => hnot (hsame ▸ hwithdrawn)
      exact ⟨posting', hposting', hrequest, by omega, hnot⟩
    · rintro ⟨posting', hposting', hrequest, hindex, hnot⟩
      exact ⟨posting', hposting', hrequest, by omega, hnot⟩
  · rw [h.settled i reply hreply]
    show _ = ledger.settlement (answers ++ [delivery]) i
    by_cases hsame : i = answers.length
    · have hmem : i ∈ ledger.withdrawn := by rwa [hsame, hanswers]
      rw [Ledger.settlement, Ledger.settlement, if_pos hmem, if_pos hmem]
    · rw [Ledger.settlement_append hsame]

/-- Any other answer settles the reply to its message. -/
theorem Resolves.read_answered (h : Resolves ledger answers client session)
    (hlength : client.replies.length = ledger.accepted.length) (hvalid : ledger.Valid)
    (htimely : ledger.Timely) (hanswers : answers.length = ledger.answered)
    (hwaiting : ledger.waiting = posting :: waiting)
    (hnot : ledger.answered ∉ ledger.withdrawn) (capacity : Nat) :
    Resolves (ledger.step (η := η) capacity .read) (answers ++ [delivery])
      (client.complete ledger.answered delivery.outcome)
      (session.forget posting.message.request) := by
  have holdest := Ledger.getElem?_answered hwaiting
  obtain ⟨reply, hreply⟩ : ∃ reply, client.replies[ledger.answered]? = some reply :=
    ⟨_, List.getElem?_eq_getElem (hlength ▸ (List.getElem?_eq_some_iff.mp holdest).1)⟩
  have hsent : reply.settlement = .sent := by
    rw [h.settled _ reply hreply]
    exact Ledger.settlement_eq_sent_iff.mpr ⟨hnot, Nat.le_of_eq hanswers⟩
  have hcompleted := Reply.complete_sent hsent delivery.outcome
  simp only [Client.complete, Client.reply?, hreply]
  refine h.settle hvalid htimely hreply holdest (Nat.le_refl _) ?_ ?_ ?_ (fun i => ?_)
    fun i hother => ?_
  · rw [hcompleted]
    exact Settlement.noConfusion
  · show _ = ledger.settlement (answers ++ [delivery]) ledger.answered
    rw [hcompleted, Ledger.settlement, if_neg hnot, ← hanswers, List.getElem?_concat_length]
  · rfl
  · show _ ∧ i ∉ ledger.withdrawn ↔ _
    rw [Ledger.answered_read hwaiting]
    constructor
    · rintro ⟨hlater, hnot⟩
      exact ⟨by omega, hnot, by omega⟩
    · rintro ⟨hlater, hnot, hother⟩
      exact ⟨by omega, hnot⟩
  · exact Ledger.settlement_append (hanswers ▸ hother) delivery

/-- What a turn of the reader leaves of the client goes on keeping to the ledger. -/
theorem Keeps.receive (h : Keeps settings ledger client session) (hvalid : ledger.Valid)
    (hanswers : answers.length = ledger.answered) (hwaiting : ledger.waiting = posting :: waiting)
    (hoverhears : (client.withQueue (waiting.map fun posting =>
      client.channel.frame posting.message)).Overhears client')
    (hrequest : delivery.request = some posting.message.request) (capacity : Nat) :
    ∃ session', Keeps settings (ledger.step (η := η) capacity .read) (client'.receive delivery)
        session' ∧
      (Resolves ledger answers client session → ledger.Timely →
        Resolves (ledger.step (η := η) capacity .read) (answers ++ [delivery])
          (client'.receive delivery) session') := by
  have hkeeps := (h.dequeue hwaiting capacity).overheard hoverhears
  have hreplies : client'.replies = client.replies := hoverhears.replies_eq
  rw [Client.receive_reply hkeeps.opened hrequest]
  cases hpending : session.pending[posting.message.request]? with
  | none =>
      -- The request was forgotten, which a cancel does and nothing else.
      refine ⟨session, hkeeps, fun hresolves htimely => ?_⟩
      have hwithdrawn : ledger.answered ∈ ledger.withdrawn := by
        by_contra hnot
        have hfound := (hresolves.pending_oldest hvalid htimely hwaiting).mpr ⟨rfl, hnot⟩
        rw [hfound] at hpending
        cases hpending
      exact (hresolves.of_replies hreplies).read_withdrawn hanswers hwaiting hwithdrawn capacity
  | some index =>
      have hforgets := hkeeps.forget posting.message.request
      refine ⟨session.forget posting.message.request, ?_, fun hresolves htimely => ?_⟩
      · dsimp only
        rw [Client.complete]
        cases hreply : Client.reply? _ index with
        | none => exact hforgets
        | some reply => exact hforgets.settle hreply (reply.complete_request delivery.outcome) _
      · obtain ⟨rfl, hnot⟩ := (hresolves.pending_oldest hvalid htimely hwaiting).mp hpending
        have hforgotten : Resolves ledger answers
            (client'.withSession (session.forget posting.message.request)) session :=
          hresolves.of_replies hreplies
        exact hforgotten.read_answered hkeeps.length_replies hvalid htimely hanswers hwaiting hnot
          capacity

end Receiving

end MediaCatalog
