import Mathlib.Data.Nat.ModEq
import MediaCatalog.Proofs.Client.Knowledge

/-!
Request numbers over any number of requests. They come back after 2^32 of them, refused ones
included. A session finds all replies that wait, each under its own request, for just as long as it
draws no number under which a reply still waits; a reply would have to wait through 2^32 requests
for that. Then it is lost from the table: the answer to its request goes to the newer one, or to
none.
-/

namespace MediaCatalog

variable {σ η : Type}

/-! ### Turns of a session -/

/-- What a session sees of a reply. -/
def Reply.stand (reply : Reply) : UInt32 × Settlement := (reply.request, reply.settlement)

/-- What a step makes of the table of a session and of the replies of its client, and whether it
draws a request number. -/
inductive Session.Turn (session : Session η) (replies : List Reply) :
    Bool → Session η → List Reply → Prop where
  /-- All replies stand as they did. -/
  | still {after : Session η} {replies' : List Reply}
      (hnext : after.nextRequest = session.nextRequest) (hpending : after.pending = session.pending)
      (hstand : replies'.map Reply.stand = replies.map Reply.stand) :
      session.Turn replies false after replies'
  | refused {after : Session η} (hnext : after.nextRequest = session.nextRequest + 1)
      (hpending : after.pending =
        (session.pending.insert session.nextRequest replies.length).erase session.nextRequest) :
      session.Turn replies true after replies
  | accepted {after : Session η} (hnext : after.nextRequest = session.nextRequest + 1)
      (hpending : after.pending = session.pending.insert session.nextRequest replies.length) :
      session.Turn replies true after
        (replies ++ [{ request := session.nextRequest, hooked := true }])
  | settled {after : Session η} {index : Nat} {reply reply' : Reply}
      (hreply : replies[index]? = some reply) (hsent : reply.settlement = .sent)
      (hrequest : reply'.request = reply.request) (hsettled : reply'.settlement ≠ .sent)
      (hnext : after.nextRequest = session.nextRequest)
      (hpending : after.pending = session.pending.erase reply.request) :
      session.Turn replies false after (replies.set index reply')
  /-- All replies that were found have settled. -/
  | lost {after : Session η} {replies' : List Reply}
      (hrequests : replies'.map Reply.request = replies.map Reply.request)
      (hwaits : ∀ (index : Nat) reply, replies'[index]? = some reply → reply.settlement = .sent →
        replies[index]? = some reply ∧
          ∀ request : UInt32, session.pending[request]? ≠ some index)
      (hnext : after.nextRequest = session.nextRequest) (hpending : after.pending = {}) :
      session.Turn replies false after replies'

/-- Every reply that waits is found under its request. -/
def Session.Finds (session : Session η) (replies : List Reply) : Prop :=
  ∀ (index : Nat) reply, replies[index]? = some reply → reply.settlement = .sent →
    session.pending[reply.request]? = some index

/-- No reply waits under the number that would be drawn next. -/
def Session.Fresh (session : Session η) (replies : List Reply) : Prop :=
  ∀ reply ∈ replies, reply.settlement = .sent → reply.request ≠ session.nextRequest

namespace Session.Turn

variable {session after : Session η} {replies replies' : List Reply} {drew : Bool}
  (h : session.Turn replies drew after replies')
include h

/-- Only request numbers and table matter. -/
theorem congr {after' : Session η} (hnext : after'.nextRequest = after.nextRequest)
    (hpending : after'.pending = after.pending) : session.Turn replies drew after' replies' := by
  cases h with
  | still hnext' hpending' hstand =>
      exact .still (hnext.trans hnext') (hpending.trans hpending') hstand
  | refused hnext' hpending' => exact .refused (hnext.trans hnext') (hpending.trans hpending')
  | accepted hnext' hpending' => exact .accepted (hnext.trans hnext') (hpending.trans hpending')
  | settled hreply hsent hrequest hsettled hnext' hpending' =>
      exact .settled hreply hsent hrequest hsettled (hnext.trans hnext') (hpending.trans hpending')
  | lost hrequests hwaits hnext' hpending' =>
      exact .lost hrequests hwaits (hnext.trans hnext') (hpending.trans hpending')

/-- All that wait are still found unless one waits under the number that is drawn. -/
theorem finds (hfinds : session.Finds replies) (hfresh : drew = true → session.Fresh replies) :
    after.Finds replies' := by
  intro i other hother hwaits
  cases h with
  | still hnext hpending hstand =>
      have hsame : replies'[i]?.map Reply.stand = replies[i]?.map Reply.stand := by
        rw [← List.getElem?_map, hstand, List.getElem?_map]
      rw [hother] at hsame
      obtain ⟨reply, hreply, hstands⟩ := Option.map_eq_some_iff.mp hsame.symm
      obtain ⟨hrequest, hsettlement⟩ := Prod.mk.inj hstands
      rw [hpending, ← hrequest]
      exact hfinds i reply hreply (hsettlement.trans hwaits)
  | refused hnext hpending =>
      have hne := hfresh rfl other (List.mem_of_getElem? hother) hwaits
      rw [hpending, Std.TreeMap.getElem?_erase, Std.TreeMap.getElem?_insert]
      simp only [Std.compare_eq_iff_eq, hne.symm, if_false]
      exact hfinds i other hother hwaits
  | accepted hnext hpending =>
      rw [hpending, Std.TreeMap.getElem?_insert]
      simp only [Std.compare_eq_iff_eq]
      rcases getElem?_append_singleton.mp hother with hearlier | ⟨rfl, rfl⟩
      · have hne := hfresh rfl other (List.mem_of_getElem? hearlier) hwaits
        rw [if_neg hne.symm]
        exact hfinds i other hearlier hwaits
      · exact if_pos rfl
  | settled hreply hsent hrequest hsettled hnext hpending =>
      rcases (getElem?_set_eq_some hreply).mp hother with ⟨rfl, rfl⟩ | ⟨hne, hkept⟩
      · exact absurd hwaits hsettled
      · have hfound := hfinds i other hkept hwaits
        rw [hpending, Std.TreeMap.getElem?_erase]
        simp only [Std.compare_eq_iff_eq]
        split
        · next hsame =>
          rw [← hsame, hfinds _ _ hreply hsent] at hfound
          exact absurd (Option.some.inj hfound).symm hne
        · exact hfound
  | lost hrequests hwaits' hnext hpending =>
      obtain ⟨hreply, hnowhere⟩ := hwaits' i other hother hwaits
      exact absurd (hfinds i other hreply hwaits) (hnowhere other.request)

/-- A reply that waits under the number that is drawn is not found any more. -/
theorem fresh (hfinds : after.Finds replies') (hdrew : drew = true) : session.Fresh replies := by
  intro reply hreply hwaits hsame
  obtain ⟨index, hindex⟩ := List.mem_iff_getElem?.mp hreply
  have hlt := (List.getElem?_eq_some_iff.mp hindex).1
  cases h with
  | refused hnext hpending =>
      have hfound := hfinds index reply hindex hwaits
      rw [hpending, hsame, Std.TreeMap.getElem?_erase_self] at hfound
      cases hfound
  | accepted hnext hpending =>
      have hfound := hfinds index reply (getElem?_append_singleton.mpr (.inl hindex)) hwaits
      rw [hpending, hsame, Std.TreeMap.getElem?_insert_self] at hfound
      exact absurd (Option.some.inj hfound).symm (Nat.ne_of_lt hlt)
  | still | settled | lost => cases hdrew

/-- A number that is drawn is that of a new reply, or of none. -/
theorem requests : after.nextRequest =
      (if drew then session.nextRequest + 1 else session.nextRequest) ∧
    (replies'.map Reply.request = replies.map Reply.request ∨
      drew = true ∧ replies'.map Reply.request =
        replies.map Reply.request ++ [session.nextRequest]) := by
  cases h with
  | still hnext hpending hstand =>
      have hsame := congrArg (List.map Prod.fst) hstand
      rw [List.map_map, List.map_map] at hsame
      exact ⟨hnext, .inl hsame⟩
  | refused hnext hpending => exact ⟨hnext, .inl rfl⟩
  | accepted hnext hpending => exact ⟨hnext, .inr ⟨rfl, List.map_append⟩⟩
  | settled hreply hsent hrequest hsettled hnext hpending =>
      exact ⟨hnext, .inl (map_set_of_eq Reply.request hreply hrequest)⟩
  | lost hrequests hwaits hnext hpending => exact ⟨hnext, .inl hrequests⟩

end Session.Turn

/-! ### Steps as turns -/

/-- The session of a client takes a turn. -/
def Client.Turns (client : Client σ η) (session : Session η) (drew : Bool) (after : Client σ η) :
    Prop :=
  ∃ session', after.session = some session' ∧
    session.Turn client.replies drew session' after.replies

section Settling

variable {client : Client σ η} {session : Session η} (hopened : client.session = some session)
include hopened

theorem Client.turns_self : client.Turns session false client :=
  ⟨session, hopened, .still rfl rfl rfl⟩

theorem Client.turns_settle {index : Nat} {reply : Reply}
    (hreply : client.replies[index]? = some reply) (callback : Callback)
    (given : Option (Except Error Value)) :
    client.Turns session false (client.settle index { reply with callback } given) :=
  ⟨session, hopened, .still rfl rfl (map_set_of_eq Reply.stand hreply rfl)⟩

theorem Client.turns_disconnected : client.Turns session false client.disconnected := by
  have hreplies (i : Nat) : client.disconnected.replies[i]? = client.replies[i]?.map fun reply =>
      if i ∈ session.pending.toList.map Prod.snd then (reply.complete (.error .notConnected)).1
      else reply := by
    rw [disconnected, hopened]
    exact getElem?_completeAll _ (.error .notConnected) session.pending.toList i
  refine ⟨session.lost, ?_, .lost ?_ ?_ rfl rfl⟩
  · rw [disconnected_session, hopened]
    rfl
  · refine List.ext_getElem? fun i => ?_
    rw [List.getElem?_map, List.getElem?_map, hreplies, Option.map_map]
    refine congrArg (Option.map · client.replies[i]?) (funext fun reply => ?_)
    dsimp only [Function.comp_apply]
    split
    · exact reply.complete_request _
    · rfl
  · intro i reply' hreply' hwaits
    rw [hreplies] at hreply'
    obtain ⟨reply, hreply, rfl⟩ := Option.map_eq_some_iff.mp hreply'
    split at hwaits
    · exact absurd hwaits (reply.complete_settles _)
    · next hnot =>
      rw [if_neg hnot]
      refine ⟨hreply, fun request hfound => hnot ?_⟩
      exact List.mem_map_of_mem (Std.TreeMap.mem_toList_iff_getElem?_eq_some.mpr hfound)

variable (h : client.Knows)
include h

theorem Client.turns_receive (delivery : Delivery) :
    client.Turns session false (client.receive delivery) := by
  rw [receive, hopened]
  dsimp only
  split
  · next request hrequest =>
    split
    · exact turns_self hopened
    · next index hindex =>
      obtain ⟨reply, hreply, rfl, hsent⟩ := (h session hopened).waiting request index hindex
      refine ⟨_, complete_session _ _ _, ?_⟩
      simp only [complete, reply?, hreply]
      exact .settled hreply hsent (reply.complete_request _) (reply.complete_settles _) rfl rfl
  · exact ⟨session, rfl, .still rfl rfl rfl⟩

theorem Client.turns_cancel (index : Nat) :
    client.Turns session false (client.cancel index) := by
  by_cases hwaits : ∃ reply, client.replies[index]? = some reply ∧ reply.settlement = .sent
  · obtain ⟨reply, hreply, hsent⟩ := hwaits
    obtain ⟨hcancelled, htold⟩ := Reply.cancel_sent hsent
    have hhooked := (h session hopened).hooked reply (List.mem_of_getElem? hreply) hsent
    have hsettled : reply.cancel.1.settlement ≠ .sent := by
      rw [hcancelled]
      exact Settlement.noConfusion
    simp only [cancel, reply?, hreply, htold, hhooked, if_true]
    refine ⟨session.forget reply.request, ?_,
      .settled hreply hsent reply.cancel_request hsettled rfl rfl⟩
    show client.session.map _ = _
    rw [hopened]
    rfl
  · rw [cancel_of_settled fun reply hreply hsent => hwaits ⟨reply, hreply, hsent⟩]
    exact turns_self hopened

end Settling

section Steps

variable [Channel σ] {client : Client σ η} {session : Session η}

/-- A step that draws a request number: a message over an open connection, and so the first
subscription to a signal. -/
def ClientStep.draws (step : ClientStep σ η) (client : Client σ η) : Bool :=
  match step, client.session with
  | send _, some _ => client.isConnected
  | subscribe signal _, some session =>
    client.isConnected && decide (signal.number ∉ session.requested)
  | _, _ => false

namespace Client

theorem turns_sendOver (hopened : client.session = some session) (command : Command) :
    client.Turns session client.isConnected (client.sendOver session command).2 := by
  rw [sendOver]
  cases hconnected : client.isConnected with
  | false => exact turns_self hopened
  | true =>
      rw [if_neg (show ¬ (!true) = true by decide)]
      dsimp only
      split
      · exact ⟨_, rfl, .accepted rfl rfl⟩
      · exact ⟨_, rfl, .refused rfl rfl⟩

theorem turns_subscribe (hopened : client.session = some session) (signal : SignalKind)
    (subscriber : η) :
    client.Turns session (client.isConnected && decide (signal.number ∉ session.requested))
      (client.subscribe session signal subscriber).2 := by
  have hsent := turns_sendOver hopened
    ⟨.signal, forwardCommand, [.int signal.number.toUInt64.toInt64]⟩
  rw [subscribe]
  cases hconnected : client.isConnected with
  | false => exact turns_self hopened
  | true =>
      rw [hconnected] at hsent
      rw [if_neg (show ¬ (!true) = true by decide)]
      dsimp only
      by_cases hasked : signal.number ∈ session.requested
      · rw [if_pos hasked]
        simp only [hasked]
        exact ⟨_, rfl, .still rfl rfl rfl⟩
      · rw [if_neg hasked]
        simp only [hasked]
        split
        · next error after hsend =>
          rw [hsend] at hsent
          exact hsent
        · next index after hsend =>
          rw [hsend] at hsent
          obtain ⟨session', hopened', hturn⟩ := hsent
          dsimp only at hopened' ⊢
          rw [hopened']
          exact ⟨_, rfl, hturn.congr rfl rfl⟩

/-- Each step is a turn of the session. -/
theorem Knows.turns_step (h : client.Knows) (hopened : client.session = some session)
    (step : ClientStep σ η) : client.Turns session (step.draws client) (client.step step) := by
  cases step with
  | send command =>
      simp only [Client.step, ClientStep.draws, hopened]
      exact turns_sendOver hopened command
  | subscribe signal subscriber =>
      simp only [Client.step, ClientStep.draws, hopened]
      exact turns_subscribe hopened signal subscriber
  | receive delivery => exact turns_receive hopened h delivery
  | cancel index => exact turns_cancel hopened h index
  | disconnect => exact turns_disconnected hopened
  | channel state => exact ⟨session, hopened, .still rfl rfl rfl⟩
  | unsubscribe subscription =>
      simp only [Client.step, unsubscribe, hopened]
      cases session.broadcasts.unsubscribe subscription with
      | error error => exact turns_self hopened
      | ok broadcasts => exact ⟨_, rfl, .still rfl rfl rfl⟩
  | onComplete index =>
      rw [Client.step, reply?]
      cases hreply : client.replies[index]? with
      | none => exact turns_self hopened
      | some reply =>
          dsimp only
          cases honComplete : client.onComplete index reply with
          | error error => exact turns_self hopened
          | ok client' =>
              obtain ⟨⟨reply', given⟩, hregister, hclient'⟩ := exists_of_bind_ok honComplete
              obtain rfl : client.settle index reply' given = client' := Except.ok.inj hclient'
              obtain ⟨callback, rfl⟩ := Reply.exists_callback_of_onComplete hregister
              exact turns_settle hopened hreply callback given

end Client

end Steps

/-! ### Counting -/

/-- Numbers that were drawn one after the other, by the time that so many were. -/
structure DrawnInOrder (drawn : Nat) (numbers : List Nat) : Prop where
  ascending : numbers.Pairwise (· < ·)
  bounds : ∀ number ∈ numbers, 1 ≤ number ∧ number ≤ drawn

namespace DrawnInOrder

variable {drawn : Nat} {numbers : List Nat} (h : DrawnInOrder drawn numbers)
include h

theorem mono {later : Nat} (hle : drawn ≤ later) : DrawnInOrder later numbers where
  ascending := h.ascending
  bounds number hnumber := ⟨(h.bounds number hnumber).1, (h.bounds number hnumber).2.trans hle⟩

/-- The next number comes behind all of them. -/
theorem next : DrawnInOrder (drawn + 1) (numbers ++ [drawn + 1]) where
  ascending := by
    refine List.pairwise_append.mpr ⟨h.ascending, List.pairwise_singleton _ _, ?_⟩
    intro number hnumber last hlast
    rw [List.mem_singleton.mp hlast]
    exact Nat.lt_succ_of_le (h.bounds number hnumber).2
  bounds number hnumber := by
    rcases List.mem_append.mp hnumber with hold | hnew
    · exact (h.mono (Nat.le_succ drawn)).bounds number hold
    · rw [List.mem_singleton.mp hnew]
      exact ⟨Nat.succ_pos drawn, Nat.le_refl _⟩

end DrawnInOrder

/-- A client with the count of the request numbers that were drawn, and which of them went to each
reply. -/
structure Tally (σ η : Type) where
  client : Client σ η
  drawn : Nat := 0
  numbers : List Nat := []

namespace Tally

variable [Channel σ]

def step (tally : Tally σ η) (step : ClientStep σ η) : Tally σ η :=
  let client := tally.client.step step
  let drawn := if step.draws tally.client then tally.drawn + 1 else tally.drawn
  let numbers :=
    if client.replies.length = tally.client.replies.length then tally.numbers
    else tally.numbers ++ [drawn]
  { client, drawn, numbers }

/-- The count of a run. -/
def run (channel : σ) (settings : ClientSettings) (steps : List (ClientStep σ η)) : Tally σ η :=
  steps.foldl step { client := .create channel settings }

theorem client_run (channel : σ) (settings : ClientSettings) (steps : List (ClientStep σ η)) :
    (run channel settings steps).client = Client.run channel settings steps := by
  induction steps using List.reverseRecOn with
  | nil => rfl
  | append_singleton steps step ih =>
      rw [Client.run_append, ← ih, run, List.foldl_append]
      rfl

/-- The request of a reply is its number, as far as 32 bits hold it. -/
structure Sound (tally : Tally σ η) : Prop where
  knows : tally.client.Knows
  nextRequest : ∃ session, tally.client.session = some session ∧
    session.nextRequest = UInt32.ofNat (tally.drawn + 1)
  requests : tally.client.replies.map Reply.request = tally.numbers.map UInt32.ofNat
  numbers : DrawnInOrder tally.drawn tally.numbers

namespace Sound

theorem create (channel : σ) (settings : ClientSettings) :
    (run channel settings ([] : List (ClientStep σ η))).Sound where
  knows := .create channel settings
  nextRequest := ⟨_, rfl, rfl⟩
  requests := rfl
  numbers := ⟨.nil, fun _ hnumber => nomatch hnumber⟩

theorem step {tally : Tally σ η} (h : tally.Sound) (step : ClientStep σ η) :
    (tally.step step).Sound := by
  obtain ⟨session, hopened, hnext⟩ := h.nextRequest
  obtain ⟨session', hopened', hturn⟩ := h.knows.turns_step hopened step
  obtain ⟨hafter, hrequests⟩ := hturn.requests
  have hdrawn : session'.nextRequest = UInt32.ofNat ((tally.step step).drawn + 1) := by
    rw [hafter, hnext, Tally.step]
    split
    · exact (UInt32.ofNat_add (tally.drawn + 1) 1).symm
    · rfl
  rcases hrequests with hsame | ⟨hdrew, hnew⟩
  · have hlength : (tally.client.step step).replies.length = tally.client.replies.length := by
      simpa using congrArg List.length hsame
    have hnumbers : (tally.step step).numbers = tally.numbers := if_pos hlength
    have hle : tally.drawn ≤ (tally.step step).drawn := by
      rw [Tally.step]
      dsimp only
      split <;> omega
    refine ⟨h.knows.step step, ⟨session', hopened', hdrawn⟩, ?_, ?_⟩
    · rw [hnumbers]
      exact hsame.trans h.requests
    · rw [hnumbers]
      exact h.numbers.mono hle
  · have hcount : (tally.step step).drawn = tally.drawn + 1 := if_pos hdrew
    have hlength : (tally.client.step step).replies.length ≠ tally.client.replies.length := by
      have hone := congrArg List.length hnew
      simp only [List.length_append, List.length_map, List.length_singleton] at hone
      omega
    have hnumbers : (tally.step step).numbers = tally.numbers ++ [tally.drawn + 1] := by
      rw [← hcount]
      exact if_neg hlength
    refine ⟨h.knows.step step, ⟨session', hopened', hdrawn⟩, ?_, ?_⟩
    · rw [hnumbers, List.map_append, ← h.requests, List.map_singleton, ← hnext]
      exact hnew
    · rw [hnumbers, hcount]
      exact h.numbers.next

theorem run (channel : σ) (settings : ClientSettings) (steps : List (ClientStep σ η)) :
    (Tally.run channel settings steps).Sound := by
  induction steps using List.reverseRecOn with
  | nil => exact .create channel settings
  | append_singleton steps step ih =>
      rw [Tally.run, List.foldl_append]
      exact ih.step step

end Sound

end Tally

theorem ofNat_eq_ofNat_iff_modEq {first second : Nat} :
    UInt32.ofNat first = UInt32.ofNat second ↔ first ≡ second [MOD 2 ^ 32] := by
  rw [← UInt32.toNat_inj, UInt32.toNat_ofNat', UInt32.toNat_ofNat']
  rfl

/-! ### What is found -/

/-- The session of the client, if there is one, finds all replies that wait. -/
def Client.Finds (client : Client σ η) : Prop :=
  ∀ session, client.session = some session → session.Finds client.replies

/-- No two replies that wait have the same request. -/
theorem Session.Finds.eq_of_request_eq {session : Session η} {replies : List Reply}
    (h : session.Finds replies) {i j : Nat} {reply other : Reply}
    (hreply : replies[i]? = some reply) (hother : replies[j]? = some other)
    (hwaits : reply.settlement = .sent) (hwaits' : other.settlement = .sent)
    (hsame : reply.request = other.request) : i = j := by
  have hi := h i reply hreply hwaits
  rw [hsame, h j other hother hwaits'] at hi
  exact (Option.some.inj hi).symm

section Found

variable {client : Client σ η} {session : Session η} (hopened : client.session = some session)
  (hknows : client.Knows)
include hopened hknows

/-- A fresh number has no place in the table that another request could lose. -/
theorem Session.Fresh.pending (h : session.Fresh client.replies) :
    session.pending[session.nextRequest]? = none := by
  rw [Option.eq_none_iff_forall_ne_some]
  intro index hindex
  obtain ⟨reply, hreply, hrequest, hwaits⟩ := (hknows session hopened).waiting _ index hindex
  exact h reply (List.mem_of_getElem? hreply) hwaits hrequest

/-- An answer completes the reply that waits for it, and no other. -/
theorem Session.Finds.replies_receive (h : session.Finds client.replies) {delivery : Delivery}
    {request : UInt32} (hrequest : delivery.request = some request) :
    (client.receive delivery).replies = client.replies.map fun reply =>
      if reply.request = request then (reply.complete delivery.outcome).1 else reply := by
  -- A reply to the same request that is not in the table has settled, and stays as it is.
  have hsettled {i : Nat} {reply : Reply} (hreply : client.replies[i]? = some reply)
      (hsame : reply.request = request) (hother : session.pending[request]? ≠ some i) :
      (reply.complete delivery.outcome).1 = reply := by
    rw [Reply.complete_settled fun hwaits => hother (hsame ▸ h i reply hreply hwaits)]
  refine List.ext_getElem? fun i => ?_
  simp only [Client.receive, hopened, hrequest, List.getElem?_map]
  cases hindex : session.pending[request]? with
  | none =>
      cases hreply : client.replies[i]? with
      | none => rfl
      | some reply =>
          by_cases hsame : reply.request = request
          · rw [Option.map_some, if_pos hsame, hsettled hreply hsame (by rw [hindex]; simp)]
          · rw [Option.map_some, if_neg hsame]
  | some index =>
      obtain ⟨waiting, hwaiting, hrequest', -⟩ :=
        (hknows session hopened).waiting request index hindex
      refine (Client.getElem?_complete _ delivery.outcome index i).trans ?_
      cases hreply : client.replies[i]? with
      | none => rfl
      | some reply =>
          rw [Option.map_some, Option.map_some]
          by_cases hhere : i = index
          · subst hhere
            obtain rfl := Option.some.inj (hreply.symm.trans hwaiting)
            rw [if_pos rfl, if_pos hrequest']
          · rw [if_neg hhere]
            split
            · next hsame =>
              rw [hsettled hreply hsame]
              rw [hindex]
              exact fun hsome => hhere (Option.some.inj hsome).symm
            · rfl

end Found

/-- The number that a step draws, if it draws one, is away from those of all replies that wait by no
multiple of 2^32. -/
def Tally.Spaces [Channel σ] (tally : Tally σ η) (step : ClientStep σ η) : Prop :=
  step.draws tally.client = true → ∀ (index : Nat) reply number,
    tally.client.replies[index]? = some reply → tally.numbers[index]? = some number →
    reply.settlement = .sent → ¬ number ≡ tally.drawn + 1 [MOD 2 ^ 32]

section Runs

variable [Channel σ]

theorem Tally.Sound.spaces_iff {tally : Tally σ η} (h : tally.Sound) {session : Session η}
    (hopened : tally.client.session = some session) (step : ClientStep σ η) :
    tally.Spaces step ↔
      (step.draws tally.client = true → session.Fresh tally.client.replies) := by
  obtain ⟨known, hknown, hnext⟩ := h.nextRequest
  obtain rfl := Option.some.inj (hopened.symm.trans hknown)
  have hnumbers (index : Nat) : tally.client.replies[index]?.map Reply.request =
      tally.numbers[index]?.map UInt32.ofNat := by
    rw [← List.getElem?_map, ← List.getElem?_map, h.requests]
  refine imp_congr_right fun _ => ⟨?_, ?_⟩
  · intro hspaced reply hmem hwaits hrequest
    obtain ⟨index, hreply⟩ := List.mem_iff_getElem?.mp hmem
    have hsame := hnumbers index
    rw [hreply] at hsame
    obtain ⟨number, hnumber, hnumber'⟩ := Option.map_eq_some_iff.mp hsame.symm
    refine hspaced index reply number hreply hnumber hwaits (ofNat_eq_ofNat_iff_modEq.mp ?_)
    rw [hnumber', hrequest, hnext]
  · intro hfresh index reply number hreply hnumber hwaits hmod
    have hsame := hnumbers index
    rw [hreply, hnumber] at hsame
    refine hfresh reply (List.mem_of_getElem? hreply) hwaits ?_
    rw [hnext, Option.some.inj hsame]
    exact ofNat_eq_ofNat_iff_modEq.mpr hmod

theorem Client.finds_step_iff {client : Client σ η} {session : Session η} (h : client.Knows)
    (hopened : client.session = some session) (hfinds : client.Finds) (step : ClientStep σ η) :
    (client.step step).Finds ↔ (step.draws client = true → session.Fresh client.replies) := by
  obtain ⟨session', hopened', hturn⟩ := h.turns_step hopened step
  constructor
  · exact fun hafter hdrew => hturn.fresh (hafter session' hopened') hdrew
  · intro hfresh after hafter
    obtain rfl := Option.some.inj (hopened'.symm.trans hafter)
    exact hturn.finds (hfinds session hopened) hfresh

theorem Client.finds_run_iff (channel : σ) (settings : ClientSettings)
    (steps : List (ClientStep σ η)) (step : ClientStep σ η)
    (hfinds : (run channel settings steps).Finds) :
    (run channel settings (steps ++ [step])).Finds ↔
      (Tally.run channel settings steps).Spaces step := by
  have hsound := Tally.Sound.run channel settings steps
  obtain ⟨session, hopened, -⟩ := hsound.nextRequest
  rw [hsound.spaces_iff hopened, run_append, ← Tally.client_run]
  exact finds_step_iff hsound.knows hopened (by rwa [Tally.client_run]) step

/-- The session finds all replies that wait, at all times of a run, exactly if no number is drawn
under which a reply still waits. -/
theorem Client.finds_throughout_iff (channel : σ) (settings : ClientSettings)
    (steps : List (ClientStep σ η)) :
    (∀ before, before <+: steps → (run channel settings before).Finds) ↔
      ∀ before step, before ++ [step] <+: steps →
        (Tally.run channel settings before).Spaces step := by
  constructor
  · intro hfinds before step hprefix
    have hbefore : before <+: steps := (List.prefix_append before [step]).trans hprefix
    exact (finds_run_iff channel settings before step (hfinds before hbefore)).mp
      (hfinds _ hprefix)
  · intro hspaced before hprefix
    induction before using List.reverseRecOn with
    | nil =>
        rintro session ⟨⟩ index reply hreply
        cases hreply
    | append_singleton before step ih =>
        have hbefore := ih ((List.prefix_append before [step]).trans hprefix)
        exact (finds_run_iff channel settings before step hbefore).mpr
          (hspaced before step hprefix)

/-- A reply that no more than 2^32 - 1 numbers were drawn after is no obstacle to drawing another
one. -/
theorem Tally.Sound.spaces_of_recent {tally : Tally σ η} (h : tally.Sound)
    (hrecent : ∀ (index : Nat) reply number, tally.client.replies[index]? = some reply →
      tally.numbers[index]? = some number → reply.settlement = .sent →
      tally.drawn + 1 < number + 2 ^ 32) (step : ClientStep σ η) : tally.Spaces step := by
  intro _ index reply number hreply hnumber hwaits hmod
  have hlt := hrecent index reply number hreply hnumber hwaits
  have hle := (h.numbers.bounds number (List.mem_of_getElem? hnumber)).2
  have hsub : 2 ^ 32 ∣ tally.drawn + 1 - number := (Nat.modEq_iff_dvd' (by omega)).mp hmod
  have hlarge := Nat.le_of_dvd (by omega) hsub
  omega

/-- Requests are numbered as they are drawn, refused ones included, as far as 32 bits hold the
number. At all times of a run of any length each reply that waits has its own place in the table,
exactly if no number is drawn under which a reply still waits; and then no two replies that wait
have the same request, an answer completes what waits for it and nothing else, and a new request
takes the place of no other. A number can be drawn as long as fewer than 2^32 were drawn since that
of any reply that waits. -/
theorem Client.waiting_apart_iff (channel : σ) (settings : ClientSettings)
    (steps : List (ClientStep σ η)) :
    let tally := Tally.run channel settings steps
    tally.client = run channel settings steps ∧
    tally.client.replies.map Reply.request = tally.numbers.map UInt32.ofNat ∧
    tally.numbers.Pairwise (· < ·) ∧
    (∀ number ∈ tally.numbers, 1 ≤ number ∧ number ≤ tally.drawn) ∧
    ((∀ before, before <+: steps → (run channel settings before).Finds) ↔
      ∀ before step, before ++ [step] <+: steps →
        (Tally.run channel settings before).Spaces step) ∧
    ((∀ (index : Nat) reply number, tally.client.replies[index]? = some reply →
      tally.numbers[index]? = some number → reply.settlement = .sent →
      tally.drawn + 1 < number + 2 ^ 32) → ∀ step, tally.Spaces step) ∧
    (tally.client.Finds → ∃ session, tally.client.session = some session ∧
      (∀ (i j : Nat) reply other, tally.client.replies[i]? = some reply →
        tally.client.replies[j]? = some other → reply.settlement = .sent →
        other.settlement = .sent → reply.request = other.request → i = j) ∧
      (∀ delivery request, delivery.request = some request →
        (tally.client.receive delivery).replies = tally.client.replies.map fun reply =>
          if reply.request = request then (reply.complete delivery.outcome).1 else reply) ∧
      ∀ step, tally.Spaces step → step.draws tally.client = true →
        session.pending[session.nextRequest]? = none) := by
  intro tally
  have hsound : tally.Sound := .run channel settings steps
  refine ⟨Tally.client_run channel settings steps, hsound.requests,
    hsound.numbers.ascending, hsound.numbers.bounds, finds_throughout_iff channel settings steps,
    hsound.spaces_of_recent, fun hfinds => ?_⟩
  obtain ⟨session, hopened, -⟩ := hsound.nextRequest
  have hfound := hfinds session hopened
  refine ⟨session, hopened, fun i j reply other => hfound.eq_of_request_eq,
    fun delivery request => hfound.replies_receive hopened hsound.knows, ?_⟩
  intro step hspaces hdrew
  exact ((hsound.spaces_iff hopened step).mp hspaces hdrew).pending hopened hsound.knows

end Runs

/-! ### A number that comes back -/

/-- A client that was never answered. -/
theorem Client.run_unanswered (command : Command) (count : Nat) :
    let client : Client Outbox Unit := run {} {} (List.replicate count (.send command))
    client.channel.connected = true ∧ client.channel.refusal = none ∧
      client.replies = (List.range count).map (fun place =>
        { request := UInt32.ofNat (place + 1), hooked := true }) ∧
      ∃ session, client.session = some session ∧
        session.nextRequest = UInt32.ofNat (count + 1) ∧
        (count ≠ 0 → session.pending[UInt32.ofNat count]? = some (count - 1)) := by
  induction count with
  | zero => exact ⟨rfl, rfl, rfl, _, rfl, rfl, absurd rfl⟩
  | succ count ih =>
      obtain ⟨hconnected, hrefusal, hreplies, session, hopened, hnext, -⟩ := ih
      rw [List.replicate_succ', run_append]
      generalize run ({} : Outbox) {} (List.replicate count (.send command)) = client at *
      have hstep : client.step (.send command) =
          { client with
            channel :=
              { client.channel with
                sent := client.channel.sent ++
                  [⟨session.nextRequest, command.object, command.number, command.args⟩] }
            session := some (session.await client.replies.length)
            replies :=
              client.replies ++ [{ request := session.nextRequest, hooked := true }] } := by
        simp only [step, hopened, sendOver, isConnected, Channel.isConnected, hconnected,
          Channel.send, hrefusal]
        rfl
      have hcount : client.replies.length = count := by
        rw [hreplies, List.length_map, List.length_range]
      rw [hstep]
      refine ⟨hconnected, hrefusal, ?_, _, rfl, ?_, fun _ => ?_⟩
      · rw [List.range_succ, List.map_append, ← hreplies, hnext]
        rfl
      · rw [Session.await, hnext]
        exact (UInt32.ofNat_add (count + 1) 1).symm
      · rw [Session.await, hnext, hcount]
        exact Std.TreeMap.getElem?_insert_self

/-- The first request was not answered until its number came back. -/
theorem Client.answered_late {command : Command} {count : Nat} (hcount : count ≠ 0)
    (hback : UInt32.ofNat (count + 1) = 1) :
    let client : Client Outbox Unit := run {} {} (List.replicate (count + 1) (.send command))
    let waiting : Reply := { request := 1, hooked := true }
    client.replies[0]? = some waiting ∧ client.replies[count]? = some waiting ∧
      ∀ delivery, delivery.request = some 1 →
        (client.receive delivery).replies[0]? = some waiting ∧
        (client.receive delivery).replies[count]? =
          some (waiting.complete delivery.outcome).1 := by
  intro client waiting
  obtain ⟨-, -, hreplies, session, hopened, -, hpending⟩ := run_unanswered command (count + 1)
  have hreply (place : Nat) (hplace : place < count + 1) : client.replies[place]? =
      some { request := UInt32.ofNat (place + 1), hooked := true } := by
    rw [hreplies, List.getElem?_map, List.getElem?_range hplace]
    rfl
  have hfirst : client.replies[0]? = some waiting := hreply 0 (Nat.succ_pos count)
  have hlast : client.replies[count]? = some waiting := by
    rw [hreply count (Nat.lt_succ_self count), hback]
  have hindex : session.pending[(1 : UInt32)]? = some count := by
    rw [← hback]
    exact hpending (Nat.succ_ne_zero count)
  refine ⟨hfirst, hlast, fun delivery hrequest => ?_⟩
  have hreceive (place : Nat) : (client.receive delivery).replies[place]? =
      client.replies[place]?.map fun reply =>
        if place = count then (reply.complete delivery.outcome).1 else reply := by
    have hcomplete : client.receive delivery =
        Client.complete { client with session := some (session.forget 1) } count
          delivery.outcome := by
      rw [receive, hopened, hrequest]
      dsimp only
      rw [hindex]
      rfl
    rw [hcomplete]
    exact getElem?_complete _ delivery.outcome count place
  rw [hreceive, hreceive, hfirst, hlast, Option.map_some, Option.map_some,
    if_neg hcount.symm, if_pos rfl]
  exact ⟨rfl, rfl⟩

/-- Two replies wait under one request, the first and the last. The answer to that request goes to
the last one, and the first one waits on. -/
theorem Client.waiting_not_apart :
    let client : Client Outbox Unit :=
      run {} {} (List.replicate (2 ^ 32 + 1) (.send ⟨.signal, 0, []⟩))
    let waiting : Reply := { request := 1, hooked := true }
    client.replies[0]? = some waiting ∧ client.replies[2 ^ 32]? = some waiting ∧
      ∀ delivery, delivery.request = some 1 →
        (client.receive delivery).replies[0]? = some waiting ∧
        (client.receive delivery).replies[2 ^ 32]? =
          some (waiting.complete delivery.outcome).1 := by
  have hback : UInt32.ofNat (2 ^ 32 + 1) = UInt32.ofNat 1 :=
    ofNat_eq_ofNat_iff_modEq.mpr Nat.add_modEq_left
  exact answered_late (by omega) hback

end MediaCatalog
