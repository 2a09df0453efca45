import Mathlib.Algebra.Group.Nat.Defs
import MediaCatalog.Proofs.Client.Replies

/-!
The table of a session. It tracks the replies of the client: a request is in the table, with the
position of its reply, as long as that reply waits. Sending, settling and the loss of the channel
each keep it so.
-/

namespace MediaCatalog

variable {σ η : Type}

/-- The session when its next request is that of the reply at a position. -/
def Session.await (session : Session η) (index : Nat) : Session η :=
  { session with
    nextRequest := session.nextRequest + 1
    pending := session.pending.insert session.nextRequest index }

/-- A session that drew some request numbers, and the replies of its client: the session waits for
exactly those that have not settled. -/
structure Session.Tracks (session : Session η) (drawn : Nat) (replies : List Reply) : Prop where
  nextRequest : session.nextRequest = UInt32.ofNat (drawn + 1)
  drawn_of_mem : ∀ reply ∈ replies, 0 < reply.request.toNat ∧ reply.request.toNat ≤ drawn
  waiting : ∀ request (index : Nat), session.pending[request]? = some index ↔
    ∃ reply, replies[index]? = some reply ∧ reply.request = request ∧ reply.settlement = .sent
  hooked : ∀ reply ∈ replies, reply.settlement = .sent → reply.hooked = true

namespace Session.Tracks

variable {session : Session η} {drawn : Nat} {replies : List Reply}

theorem initial (settings : ClientSettings) : (Session.open settings : Session η).Tracks 0 [] where
  nextRequest := rfl
  drawn_of_mem reply hreply := nomatch hreply
  waiting request index := by simp [Session.open]
  hooked reply hreply := nomatch hreply

variable (h : session.Tracks drawn replies)
include h

/-- Only the request numbers and the table matter. -/
theorem congr {session' : Session η} (hnext : session'.nextRequest = session.nextRequest)
    (hpending : session'.pending = session.pending) : session'.Tracks drawn replies :=
  ⟨hnext ▸ h.nextRequest, h.drawn_of_mem, hpending ▸ h.waiting, h.hooked⟩

theorem pending_of_sent {index : Nat} {reply : Reply} (hreply : replies[index]? = some reply)
    (hsent : reply.settlement = .sent) : session.pending[reply.request]? = some index :=
  (h.waiting _ _).mpr ⟨reply, hreply, rfl, hsent⟩

/-- Two replies that wait have different requests. -/
theorem eq_of_request_eq {i j : Nat} {reply other : Reply} (hreply : replies[i]? = some reply)
    (hother : replies[j]? = some other) (hsent : reply.settlement = .sent)
    (hsent' : other.settlement = .sent) (hsame : reply.request = other.request) : i = j := by
  have hi := h.pending_of_sent hreply hsent
  have hj := h.pending_of_sent hother hsent'
  rw [hsame] at hi
  exact Option.some.inj (hi.symm.trans hj)

/-- The next request is that of no reply. -/
theorem request_ne (hdrawn : drawn < 2 ^ 32) : ∀ reply ∈ replies,
    reply.request ≠ session.nextRequest := by
  intro reply hreply hsame
  have hbounds := h.drawn_of_mem reply hreply
  rw [hsame, h.nextRequest, UInt32.toNat_ofNat'] at hbounds
  omega

theorem pending_nextRequest (hdrawn : drawn < 2 ^ 32) :
    session.pending[session.nextRequest]? = none := by
  rw [Option.eq_none_iff_forall_ne_some]
  intro index hindex
  obtain ⟨reply, hreply, hrequest, -⟩ := (h.waiting _ _).mp hindex
  exact h.request_ne hdrawn reply (List.mem_of_getElem? hreply) hrequest

theorem nextRequest_succ : session.nextRequest + 1 = UInt32.ofNat (drawn + 1 + 1) := by
  rw [h.nextRequest, UInt32.ofNat_add (drawn + 1) 1]
  rfl

/-- A message that is refused uses up its number and leaves no reply behind. -/
theorem refused (hdrawn : drawn < 2 ^ 32) (index : Nat) :
    ((session.await index).forget session.nextRequest).Tracks (drawn + 1) replies := by
  refine ⟨h.nextRequest_succ, ?_, ?_, h.hooked⟩
  · intro reply hreply
    have hbounds := h.drawn_of_mem reply hreply
    omega
  · intro request i
    rw [← h.waiting, Session.forget, Session.await, Std.TreeMap.getElem?_erase,
      Std.TreeMap.getElem?_insert]
    simp only [Std.compare_eq_iff_eq]
    split
    · next hsame => rw [← hsame, h.pending_nextRequest hdrawn]
    · rfl

/-- A message that is accepted leaves one more reply to wait for. -/
theorem accepted (hdrawn : drawn + 1 < 2 ^ 32) :
    (session.await replies.length).Tracks (drawn + 1)
      (replies ++ [{ request := session.nextRequest, hooked := true }]) := by
  have hnumber : session.nextRequest.toNat = drawn + 1 := by
    rw [h.nextRequest, UInt32.toNat_ofNat']
    omega
  refine ⟨h.nextRequest_succ, ?_, ?_, ?_⟩
  · intro reply hreply
    rcases List.mem_append.mp hreply with hearlier | hnew
    · have hbounds := h.drawn_of_mem reply hearlier
      omega
    · obtain rfl := List.mem_singleton.mp hnew
      show 0 < session.nextRequest.toNat ∧ session.nextRequest.toNat ≤ drawn + 1
      omega
  · intro request index
    rw [Session.await, Std.TreeMap.getElem?_insert]
    simp only [Std.compare_eq_iff_eq, getElem?_append_singleton]
    split
    · next hsame =>
      constructor
      · intro hindex
        obtain rfl := Option.some.inj hindex
        exact ⟨_, .inr ⟨rfl, rfl⟩, hsame, rfl⟩
      · rintro ⟨reply, hearlier | ⟨rfl, -⟩, hrequest, -⟩
        · exact absurd (hrequest.trans hsame.symm)
            (h.request_ne (by omega) reply (List.mem_of_getElem? hearlier))
        · rfl
    · next hdiffers =>
      rw [h.waiting]
      constructor
      · rintro ⟨reply, hreply, hrest⟩
        exact ⟨reply, .inl hreply, hrest⟩
      · rintro ⟨reply, hearlier | ⟨-, rfl⟩, hrequest, hsent⟩
        · exact ⟨reply, hearlier, hrequest, hsent⟩
        · exact absurd hrequest hdiffers
  · intro reply hreply
    rcases List.mem_append.mp hreply with hearlier | hnew
    · exact h.hooked reply hearlier
    · obtain rfl := List.mem_singleton.mp hnew
      exact fun _ => rfl

section Replacing

variable {index : Nat} {reply : Reply} (hreply : replies[index]? = some reply)
include hreply

/-- The requests of the replies stay when one of them is replaced. -/
theorem drawn_of_mem_set {reply' : Reply} (hrequest : reply'.request = reply.request) :
    ∀ other ∈ replies.set index reply', 0 < other.request.toNat ∧ other.request.toNat ≤ drawn := by
  intro other hother
  rcases List.mem_or_eq_of_mem_set hother with hkept | rfl
  · exact h.drawn_of_mem other hkept
  · rw [hrequest]
    exact h.drawn_of_mem reply (List.mem_of_getElem? hreply)

/-- A reply that settles is waited for no longer. -/
theorem settle {reply' : Reply} (hsent : reply.settlement = .sent)
    (hrequest : reply'.request = reply.request) (hsettled : reply'.settlement ≠ .sent) :
    (session.forget reply.request).Tracks drawn (replies.set index reply') := by
  refine ⟨h.nextRequest, h.drawn_of_mem_set hreply hrequest, ?_, ?_⟩
  · intro request i
    rw [Session.forget, Std.TreeMap.getElem?_erase]
    simp only [Std.compare_eq_iff_eq, getElem?_set_eq_some hreply]
    split
    · next hsame =>
      -- Whatever else waits has another request.
      constructor
      · intro hnone
        cases hnone
      · rintro ⟨other, ⟨-, rfl⟩ | ⟨hne, hother⟩, hrequest', hwaits⟩
        · exact absurd hwaits hsettled
        · exact absurd (h.eq_of_request_eq hother hreply hwaits hsent
            (hrequest'.trans hsame.symm)) hne
    · next hdiffers =>
      rw [h.waiting]
      constructor
      · rintro ⟨other, hother, hrequest', hwaits⟩
        refine ⟨other, .inr ⟨?_, hother⟩, hrequest', hwaits⟩
        rintro rfl
        obtain rfl := Option.some.inj (hreply.symm.trans hother)
        exact hdiffers hrequest'
      · rintro ⟨other, ⟨-, rfl⟩ | ⟨-, hother⟩, hrequest', hwaits⟩
        · exact absurd hwaits hsettled
        · exact ⟨other, hother, hrequest', hwaits⟩
  · intro other hother hwaits
    rcases List.mem_or_eq_of_mem_set hother with hkept | rfl
    · exact h.hooked other hkept hwaits
    · exact absurd hwaits hsettled

/-- The table does not know of callbacks. -/
theorem register (callback : Callback) :
    session.Tracks drawn (replies.set index { reply with callback }) := by
  refine ⟨h.nextRequest, h.drawn_of_mem_set hreply rfl, ?_, ?_⟩
  · intro request i
    rw [h.waiting]
    simp only [getElem?_set_eq_some hreply]
    constructor
    · rintro ⟨other, hother, hrest⟩
      by_cases hsame : i = index
      · subst hsame
        obtain rfl := Option.some.inj (hreply.symm.trans hother)
        exact ⟨_, .inl ⟨rfl, rfl⟩, hrest⟩
      · exact ⟨other, .inr ⟨hsame, hother⟩, hrest⟩
    · rintro ⟨other, ⟨rfl, rfl⟩ | ⟨-, hother⟩, hrest⟩
      · exact ⟨reply, hreply, hrest⟩
      · exact ⟨other, hother, hrest⟩
  · intro other hother hwaits
    rcases List.mem_or_eq_of_mem_set hother with hkept | rfl
    · exact h.hooked other hkept hwaits
    · exact h.hooked reply (List.mem_of_getElem? hreply) hwaits

end Replacing

/-- A reply that an outcome settles, or that had settled before, is waited for no longer. -/
theorem lose {outcome : Except Error Value} {session' : Session η}
    (hnext : session'.nextRequest = session.nextRequest) (hpending : session'.pending = {}) :
    session'.Tracks drawn (replies.map fun reply => (reply.complete outcome).1) := by
  refine ⟨hnext ▸ h.nextRequest, ?_, ?_, ?_⟩
  · intro reply' hreply'
    obtain ⟨reply, hreply, rfl⟩ := List.mem_map.mp hreply'
    rw [reply.complete_request]
    exact h.drawn_of_mem reply hreply
  · intro request index
    rw [hpending, Std.TreeMap.getElem?_emptyc]
    constructor
    · intro hnone
      cases hnone
    · rintro ⟨reply', hreply', -, hwaits⟩
      obtain ⟨reply, -, rfl⟩ := List.mem_map.mp (List.mem_of_getElem? hreply')
      exact absurd hwaits (reply.complete_settles outcome)
  · intro reply' hreply' hwaits
    obtain ⟨reply, -, rfl⟩ := List.mem_map.mp hreply'
    exact absurd hwaits (reply.complete_settles outcome)

end Session.Tracks

end MediaCatalog
