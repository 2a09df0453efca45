import MediaCatalog.Client.Session

/-!
Replies of a client. A reply that waits is settled by its outcome or by a cancel, and one that
settled before stays as it is; neither changes the request that it belongs to. Replacing one reply
leaves all others where they are.
-/

namespace MediaCatalog

variable {σ η : Type}

/-! ### Items of a list -/

/-- What stands in a list with one more item at its end. -/
theorem getElem?_append_singleton {α : Type} {items : List α} {last item : α} {i : Nat} :
    (items ++ [last])[i]? = some item ↔
      items[i]? = some item ∨ i = items.length ∧ item = last := by
  rcases Nat.lt_trichotomy i items.length with hlt | rfl | hgt
  · have hne : i ≠ items.length := Nat.ne_of_lt hlt
    simp [List.getElem?_append_left hlt, hne]
  · simp [eq_comm]
  · have hne : i ≠ items.length := Nat.ne_of_gt hgt
    have hlength : (items ++ [last]).length ≤ i := by
      rw [List.length_append, List.length_singleton]
      omega
    simp [List.getElem?_eq_none hlength, List.getElem?_eq_none (Nat.le_of_lt hgt), hne]

/-- What stands in a list with another item at one position. -/
theorem getElem?_set_eq_some {α : Type} {items : List α} {index : Nat} {old new item : α} {i : Nat}
    (hold : items[index]? = some old) :
    (items.set index new)[i]? = some item ↔
      i = index ∧ item = new ∨ i ≠ index ∧ items[i]? = some item := by
  obtain ⟨hindex, -⟩ := List.getElem?_eq_some_iff.mp hold
  rw [List.getElem?_set]
  split
  · next hsame => simp [hsame.symm, hindex, eq_comm]
  · next hother => simp [Ne.symm hother]

/-- A view of the items does not see one of them replaced by one that looks the same. -/
theorem map_set_of_eq {α β : Type} {items : List α} {index : Nat} {old new : α} (view : α → β)
    (hold : items[index]? = some old) (hsame : view new = view old) :
    (items.set index new).map view = items.map view := by
  obtain ⟨hindex, rfl⟩ := List.getElem?_eq_some_iff.mp hold
  have hindex' : index < (items.map view).length := by
    rwa [List.length_map]
  have hview : view new = (items.map view)[index] := by
    rw [hsame, List.getElem_map]
  rw [List.map_set, hview, List.set_getElem_self]

/-! ### One reply -/

namespace Reply

variable {reply : Reply} {outcome : Except Error Value}

theorem status_eq_sent_iff : reply.status = .sent ↔ reply.settlement = .sent := by
  obtain ⟨request, settlement, callback, hooked⟩ := reply
  cases settlement with
  | sent | cancelled => simp [status]
  | result outcome => cases outcome <;> simp [status]

theorem cancel_request (reply : Reply) : reply.cancel.1.request = reply.request := by
  obtain ⟨request, settlement, callback, hooked⟩ := reply
  cases settlement <;> rfl

/-- A reply that settled before cannot be cancelled. -/
theorem cancel_settled (h : reply.settlement ≠ .sent) : reply.cancel = (reply, false) := by
  obtain ⟨request, settlement, callback, hooked⟩ := reply
  cases settlement with
  | sent => exact absurd rfl h
  | result outcome => rfl
  | cancelled => rfl

/-- A reply that waits is cancelled, and its owner is told. -/
theorem cancel_sent (h : reply.settlement = .sent) :
    reply.cancel.1.settlement = .cancelled ∧ reply.cancel.2 = reply.hooked := by
  rw [cancel, h]
  exact ⟨rfl, rfl⟩

theorem complete_request (reply : Reply) (outcome : Except Error Value) :
    (reply.complete outcome).1.request = reply.request := by
  obtain ⟨request, settlement, callback, hooked⟩ := reply
  cases settlement with
  | sent => cases callback <;> rfl
  | result earlier => rfl
  | cancelled => rfl

/-- A reply that waits takes the outcome. -/
theorem complete_sent (h : reply.settlement = .sent) (outcome : Except Error Value) :
    (reply.complete outcome).1.settlement = .result outcome := by
  obtain ⟨request, settlement, callback, hooked⟩ := reply
  obtain rfl : settlement = .sent := h
  cases callback <;> rfl

/-- A reply that settled before takes no other outcome. -/
theorem complete_settled (h : reply.settlement ≠ .sent) (outcome : Except Error Value) :
    reply.complete outcome = (reply, none) := by
  obtain ⟨request, settlement, callback, hooked⟩ := reply
  cases settlement with
  | sent => exact absurd rfl h
  | result earlier => rfl
  | cancelled => rfl

/-- No reply waits after an outcome. -/
theorem complete_settles (reply : Reply) (outcome : Except Error Value) :
    (reply.complete outcome).1.settlement ≠ .sent := by
  by_cases hsent : reply.settlement = .sent
  · rw [complete_sent hsent]
    exact Settlement.noConfusion
  · rwa [complete_settled hsent]

/-- Completing a reply twice is completing it once. -/
theorem complete_complete (reply : Reply) (outcome : Except Error Value) :
    ((reply.complete outcome).1.complete outcome).1 = (reply.complete outcome).1 := by
  rw [complete_settled (reply.complete_settles outcome)]

/-- Registering a callback changes nothing else. -/
theorem exists_callback_of_onComplete {reply' : Reply} {given : Option (Except Error Value)}
    (h : reply.onComplete = .ok (reply', given)) :
    ∃ callback, reply' = { reply with callback } := by
  rw [onComplete] at h
  split at h
  · split at h
    all_goals
      obtain ⟨rfl, -⟩ := Prod.mk.inj (Except.ok.inj h)
      exact ⟨_, rfl⟩
  · cases h

end Reply

/-- The session without a request that it waits for. -/
def Session.forget (session : Session η) (request : UInt32) : Session η :=
  { session with pending := session.pending.erase request }

/-! ### One of the replies of a client -/

section Settling

variable {client : Client σ η} {index : Nat} {reply reply' : Reply}

/-- Replacing a reply by one to the same request leaves the requests as they are. -/
theorem requests_settle (hreply : client.replies[index]? = some reply)
    (hsame : reply'.request = reply.request) (callback : Option (Except Error Value)) :
    (client.settle index reply' callback).replies.map Reply.request =
      client.replies.map Reply.request :=
  map_set_of_eq Reply.request hreply hsame

/-- The replies after one of them was replaced. -/
theorem getElem?_settle (hreply : client.replies[index]? = some reply)
    (callback : Option (Except Error Value)) {i : Nat} {found : Reply}
    (hfound : (client.settle index reply' callback).replies[i]? = some found) :
    (i = index ∧ found = reply') ∨ (i ≠ index ∧ client.replies[i]? = some found) :=
  (getElem?_set_eq_some hreply).mp hfound

theorem Client.settle_self (hreply : client.replies[index]? = some reply) :
    client.settle index reply none = client := by
  obtain ⟨hindex, rfl⟩ := List.getElem?_eq_some_iff.mp hreply
  obtain ⟨channel, session, replies, events⟩ := client
  simp [Client.settle]

end Settling

/-! ### Completing replies -/

section Completing

variable (client : Client σ η) (outcome : Except Error Value)

theorem Client.complete_session (index : Nat) :
    (client.complete index outcome).session = client.session := by
  rw [complete]
  cases client.reply? index <;> rfl

theorem Client.getElem?_complete (index i : Nat) :
    (client.complete index outcome).replies[i]? =
      client.replies[i]?.map fun reply =>
        if i = index then (reply.complete outcome).1 else reply := by
  rw [complete, reply?]
  cases hreply : client.replies[index]? with
  | none =>
      cases hfound : client.replies[i]? with
      | none => rfl
      | some found =>
          have hne : i ≠ index := by
            rintro rfl
            rw [hreply] at hfound
            cases hfound
          rw [Option.map_some, if_neg hne]
  | some reply =>
      obtain ⟨hindex, -⟩ := List.getElem?_eq_some_iff.mp hreply
      show (client.replies.set index (reply.complete outcome).1)[i]? = _
      rw [List.getElem?_set]
      split
      · next hsame =>
        subst hsame
        rw [hreply, Option.map_some, if_pos rfl]
      · next hother => simp [Ne.symm hother]

/-- Completing the replies at some positions, one after the other. -/
def Client.completeAll (entries : List (UInt32 × Nat)) : Client σ η :=
  entries.foldl (fun client (_, index) => client.complete index outcome) client

theorem Client.completeAll_session (entries : List (UInt32 × Nat)) :
    (client.completeAll outcome entries).session = client.session := by
  induction entries generalizing client with
  | nil => rfl
  | cons entry entries ih =>
      exact (ih (client.complete entry.2 outcome)).trans (client.complete_session outcome entry.2)

theorem Client.getElem?_completeAll (entries : List (UInt32 × Nat)) (i : Nat) :
    (client.completeAll outcome entries).replies[i]? =
      client.replies[i]?.map fun reply =>
        if i ∈ entries.map Prod.snd then (reply.complete outcome).1 else reply := by
  induction entries generalizing client with
  | nil =>
      rw [List.map_nil]
      simp only [List.not_mem_nil, if_false, Option.map_id']
      rfl
  | cons entry entries ih =>
      show ((client.complete entry.2 outcome).completeAll outcome entries).replies[i]? = _
      rw [ih, client.getElem?_complete, Option.map_map]
      congr 1
      funext reply
      simp only [Function.comp_apply, List.map_cons, List.mem_cons]
      by_cases hhere : i = entry.2
      · simp only [hhere, if_true, true_or, reply.complete_complete, ite_self]
      · simp only [hhere, if_false, false_or]

end Completing

end MediaCatalog
