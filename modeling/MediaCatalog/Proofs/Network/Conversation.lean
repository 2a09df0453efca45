import MediaCatalog.Proofs.Network.Settling

/-!
Conversations. One client does as it likes over its link, and the reader takes messages whenever
it likes. However the two are interleaved, the answers are those of direct calls with the accepted
messages in the order of sending, the service ends up as these calls leave it, and each reply
settles with the answer to its own message.
-/

namespace MediaCatalog

open Wire

variable {η : Type}

/-- What a client does; the reader is somebody else. -/
def Client.act (client : LinkedClient η) (action : ClientAction η) : LinkedClient η :=
  match client.session with
  | none => client
  | some session =>
    match action with
    | .send command => (client.sendOver session command).2
    | .subscribe signal subscriber => (client.subscribe session signal subscriber).2
    | .onComplete index =>
      match client.reply? index with
      | none => client
      | some reply => (client.onComplete index reply).toOption.getD client
    | .cancel index => client.cancel index
    | .read => client

/-- A service with one client, and what was handed over to the client. -/
structure Conversation (η : Type) where
  network : Network η
  next : NodeId
  /-- The answers that arrived, the oldest first. -/
  answers : List Delivery := []

namespace Conversation

def step (conversation : Conversation η) : ClientAction η → Conversation η
  | .read =>
    let (network, next) := conversation.network.readOne 0 conversation.next
    { network, next
      answers := conversation.answers ++
        (conversation.network.turn 0 conversation.next).1.1.toList }
  | action =>
    match conversation.network.client? 0 with
    | none => conversation
    | some client =>
      { conversation with network := conversation.network.setClient 0 (client.act action) }

/-- A conversation over a new link. -/
def run (service : Service) (settings : ClientSettings) (next : NodeId)
    (actions : List (ClientAction η)) : Conversation η :=
  actions.foldl step { network := Network.create service [settings], next }

theorem run_append (service : Service) (settings : ClientSettings) (next : NodeId)
    (actions : List (ClientAction η)) (action : ClientAction η) :
    run service settings next (actions ++ [action]) =
      (run service settings next actions).step action := by
  simp [run]

/-- A turn of the reader within a conversation. -/
theorem step_read (conversation : Conversation η) {arrived : Option Delivery}
    {network : Network η} {next : NodeId}
    (hturn : conversation.network.turn 0 conversation.next = ((arrived, network), next)) :
    conversation.step .read =
      { network, next, answers := conversation.answers ++ arrived.toList } := by
  simp only [step, Network.readOne_eq_turn, Functor.map, StateT.map, bind, hturn]
  rfl

end Conversation

variable {settings : ClientSettings} {ledger : Ledger} {answers : List Delivery}
  {client : LinkedClient η} {session : Session η}

/-- Whatever the client does, it goes on keeping to the ledger. -/
theorem Keeps.act (h : Keeps settings ledger client session) (hvalid : ledger.Valid)
    (hanswers : answers.length = ledger.answered) {action : ClientAction η}
    (hact : action ≠ .read) :
    ∃ session', Follows settings ledger answers client session
      (ledger.step settings.capacity action) (client.act action) session' := by
  unfold Client.act
  rw [h.opened]
  cases action with
  | send command => exact h.post hvalid hanswers command
  | subscribe signal subscriber => exact h.subscribe hvalid hanswers signal subscriber
  | onComplete index =>
      have hsame : Follows settings ledger answers client session ledger client session :=
        ⟨h, fun hresolves _ => hresolves⟩
      dsimp only
      cases hreply : client.reply? index with
      | none => exact ⟨session, hsame⟩
      | some reply =>
          dsimp only
          cases honComplete : client.onComplete index reply with
          | error cause => exact ⟨session, hsame⟩
          | ok client' => exact ⟨session, h.onComplete answers hreply honComplete⟩
  | cancel index => exact h.cancel hvalid hanswers settings.capacity index
  | read => exact absurd rfl hact

/-! ### The invariant -/

/-- The conversation has come as far as the ledger, and answers and service are what direct calls
made of it. Replies stand where the ledger has them if messages are answered in time. -/
structure Conversation.Refines (settings : ClientSettings) (ledger : Ledger)
    (direct : List Outcome × Service) (timely : Prop) (conversation : Conversation η) : Prop where
  linked : ∃ client session, conversation.network.clients = [client] ∧
    Keeps settings ledger client session ∧
    (timely → Resolves ledger conversation.answers client session)
  requests : conversation.answers.map Delivery.request =
    ledger.served.map fun posting => some posting.message.request
  outcomes : List.Forall₂ Outcome.Copied (direct.1.map (relayed settings.wire))
    (conversation.answers.map Delivery.outcome)
  service : direct.2.Mirrors conversation.network.service

namespace Conversation.Refines

variable {direct : List Outcome × Service} {timely timely' : Prop}
  {conversation : Conversation η} (h : conversation.Refines settings ledger direct timely)
include h

/-- A turn of the reader with nothing to read changes nothing. -/
theorem read_idle (hidle : ledger.waiting = []) : conversation.step .read = conversation := by
  obtain ⟨client, session, hclients, hkeeps, -⟩ := h.linked
  have hqueue : client.channel.queue = [] := by
    rw [hkeeps.queue, hidle]
    rfl
  have hturn : conversation.network.turn 0 conversation.next =
      ((none, conversation.network), conversation.next) := by
    simp only [Network.turn, Network.client?_zero hclients, hqueue]
    rfl
  rw [conversation.step_read hturn, Option.toList_none, List.append_nil]

/-- Fewer runs are timely. -/
theorem imp (hbefore : timely' → timely) :
    conversation.Refines settings ledger direct timely' := by
  obtain ⟨client, session, hclients, hkeeps, hresolves⟩ := h.linked
  exact ⟨⟨client, session, hclients, hkeeps, fun htimely => hresolves (hbefore htimely)⟩,
    h.requests, h.outcomes, h.service⟩

variable (hvalid : ledger.Valid)
include hvalid

theorem length_answers : conversation.answers.length = ledger.answered := by
  rw [← hvalid.length_served]
  simpa using congrArg List.length h.requests

/-- What the client does concerns neither answers nor service. -/
theorem act {action : ClientAction η} (hact : action ≠ .read) (hbefore : timely' → timely)
    (hafter : timely' → (ledger.step settings.capacity action).Timely) :
    (conversation.step action).Refines settings (ledger.step settings.capacity action) direct
      timely' := by
  obtain ⟨client, session, hclients, hkeeps, hresolves⟩ := h.linked
  obtain ⟨session', hkeeps', hresolves'⟩ := hkeeps.act hvalid (h.length_answers hvalid) hact
  have hstep : conversation.step action =
      { conversation with network := { conversation.network with
          clients := [client.act action] } } := by
    unfold step
    cases action with
    | read => exact absurd rfl hact
    | _ =>
        dsimp only
        rw [Network.client?_zero hclients]
        dsimp only
        rw [Network.setClient_zero hclients]
  rw [hstep]
  refine ⟨⟨client.act action, session', rfl, hkeeps', fun htimely => ?_⟩, ?_, h.outcomes,
    h.service⟩
  · exact hresolves' (hresolves (hbefore htimely)) (hafter htimely)
  · rw [Ledger.served_act settings.capacity hvalid hact]
    exact h.requests

/-- Any other turn of the reader answers the oldest message as a direct call does. -/
theorem read {posting : Posting} {rest : List Posting} (hwaiting : ledger.waiting = posting :: rest)
    {start : NodeId} (hfit : Network.Fit settings.wire direct.2 posting.message
      (direct.2.carryOut settings.wire posting.message start).1.1)
    (hbefore : timely' → timely) (htimely : timely' → ledger.Timely) :
    (conversation.step .read).Refines settings (ledger.step (η := η) settings.capacity .read)
      (direct.1 ++ [(direct.2.carryOut settings.wire posting.message start).1.1],
        (direct.2.carryOut settings.wire posting.message start).1.2) timely' := by
  obtain ⟨client, session, hclients, hkeeps, hresolves⟩ := h.linked
  have hqueue : client.channel.queue = client.channel.frame posting.message ::
      rest.map fun posting => client.channel.frame posting.message := by
    rw [hkeeps.queue, hwaiting, List.map_cons]
  have hconfigured := hkeeps.configured
  rw [← hconfigured] at hfit
  obtain ⟨arrived, client', harrived, hrequest, hcopied, hservice, hclient, hoverhears⟩ :=
    Network.turn_frame h.service hfit hclients hkeeps.connected hqueue conversation.next
  obtain ⟨session', hkeeps', hresolves'⟩ :=
    hkeeps.receive hvalid (h.length_answers hvalid) hwaiting hoverhears hrequest settings.capacity
  rw [hconfigured] at hcopied hservice
  generalize hturn : conversation.network.turn 0 conversation.next = result
    at harrived hservice hclient
  obtain ⟨⟨arrived', network⟩, next⟩ := result
  obtain rfl : arrived' = some arrived := harrived
  rw [conversation.step_read hturn, Option.toList_some]
  refine ⟨⟨client'.receive arrived, session', hclient, hkeeps', fun h => ?_⟩, ?_, ?_, hservice⟩
  · exact hresolves' (hresolves (hbefore h)) (htimely h)
  · rw [Ledger.served_read hwaiting, List.map_append, List.map_append, h.requests]
    simp only [List.map_singleton, hrequest]
  · simp only [List.map_append, List.map_singleton]
    exact List.rel_append h.outcomes (.cons hcopied .nil)

end Conversation.Refines

/-! ### Whole conversations -/

/-- What a link needs to carry messages and their answers: nothing if it does not encode. If it
does, the service and the arguments are in order, and lengths fit into four bytes. -/
structure Service.Fits (service : Service) (wire : Bool) (messages : List Message)
    (start : NodeId) : Prop where
  sound : wire = true → service.Sound
  args : wire = true → ∀ message ∈ messages, Transmissible [.list message.args]
  compact : wire = true → ∀ outcome ∈ (service.carryOutAll wire messages start).1.1,
    Compact [payloadOf outcome]

section Fitting

variable {service : Service} {wire : Bool} {messages : List Message} {start : NodeId}

/-- A link that does not encode carries everything. -/
theorem Service.Fits.plain : service.Fits false messages start := ⟨nofun, nofun, nofun⟩

theorem Service.Fits.of_append {more : List Message}
    (h : service.Fits wire (messages ++ more) start) : service.Fits wire messages start where
  sound := h.sound
  args hwire message hmessage := h.args hwire message (List.mem_append_left more hmessage)
  compact hwire outcome houtcome :=
    h.compact hwire outcome
      ((service.carryOutAll_outcomes wire messages more start).subset houtcome)

/-- The link carries the last message to the service as the others left it. -/
theorem Service.Fits.last {message : Message}
    (h : service.Fits wire (messages ++ [message]) start) :
    let earlier := service.carryOutAll wire messages start
    Network.Fit wire earlier.1.2 message (earlier.1.2.carryOut wire message earlier.2).1.1 := by
  have hcompact := h.compact
  rw [service.carryOutAll_append wire messages message start] at hcompact
  refine ⟨fun hwire => ?_, fun hwire => ?_, fun hwire => ?_⟩
  · refine (h.sound hwire).carryOutAll (fun earlier hearlier => ?_) wire start
    exact (h.args hwire earlier (List.mem_append_left _ hearlier)).toWellFormed.of_list
  · exact h.args hwire message (List.mem_append_right _ (List.mem_singleton_self message))
  · exact hcompact hwire _ (List.mem_append_right _ (List.mem_singleton_self _))

end Fitting

/-- No message waits so long that its request number comes back, at any time of a run. -/
def Ledger.TimelyThroughout (capacity : Nat) (actions : List (ClientAction η)) : Prop :=
  ∀ earlier, earlier <+: actions → (Ledger.run capacity earlier).Timely

theorem Ledger.TimelyThroughout.of_append {capacity : Nat} {actions more : List (ClientAction η)}
    (h : TimelyThroughout capacity (actions ++ more)) : TimelyThroughout capacity actions :=
  fun earlier hearlier => h earlier (hearlier.trans (List.prefix_append actions more))

/-- Request numbers do not come back within so many actions. -/
theorem Ledger.timelyThroughout_of_length_lt {actions : List (ClientAction η)}
    (hlength : actions.length < 2 ^ 32) (capacity : Nat) : TimelyThroughout capacity actions :=
  fun earlier hearlier =>
    timely_of_length_lt capacity earlier (hearlier.length_le.trans_lt hlength)

namespace Conversation

variable (service : Service) (settings : ClientSettings) (next start : NodeId)
  (actions : List (ClientAction η))

/-- However actions are interleaved, the conversation keeps up with the ledger. -/
theorem run_refines
    (hfits : service.Fits settings.wire
      ((Ledger.run settings.capacity actions).accepted.map Posting.message) start) :
    (run service settings next actions).Refines settings (Ledger.run settings.capacity actions)
      (service.carryOutAll settings.wire
        ((Ledger.run settings.capacity actions).served.map Posting.message) start).1
      (Ledger.TimelyThroughout settings.capacity actions) := by
  induction actions using List.reverseRecOn with
  | nil =>
      exact ⟨⟨_, _, rfl, Keeps.create settings, fun _ => Resolves.create settings⟩, rfl, .nil,
        .refl service⟩
  | append_singleton actions action ih =>
      have hvalid := Ledger.run_valid settings.capacity actions
      obtain ⟨more, hmore⟩ :=
        Ledger.accepted_grows settings.capacity (Ledger.run settings.capacity actions) action
      have hbefore (h : Ledger.TimelyThroughout settings.capacity (actions ++ [action])) :=
        h.of_append
      have hafter (h : Ledger.TimelyThroughout settings.capacity (actions ++ [action])) :=
        h _ List.prefix_rfl
      rw [Ledger.run_append, ← hmore, List.map_append] at hfits
      have hrefines := ih hfits.of_append
      rw [Ledger.run_append] at hafter
      rw [run_append, Ledger.run_append]
      by_cases hact : action = .read
      · subst hact
        cases hwaiting : (Ledger.run settings.capacity actions).waiting with
        | nil =>
            rw [hrefines.read_idle hwaiting, hvalid.read_idle hwaiting]
            exact hrefines.imp hbefore
        | cons posting rest =>
            -- What was answered before, this message, and what waits after it.
            have haccepted : (Ledger.run settings.capacity actions).accepted =
                (Ledger.run settings.capacity actions).served ++ [posting] ++ rest := by
              rw [List.append_assoc, List.singleton_append, ← hwaiting]
              exact (List.take_append_drop _ _).symm
            have hserving := hfits.of_append
            rw [haccepted, List.map_append, List.map_append] at hserving
            rw [Ledger.served_read hwaiting, List.map_append, List.map_singleton,
              service.carryOutAll_append]
            exact hrefines.read hvalid hwaiting hserving.of_append.last hbefore
              fun h => h.of_append _ List.prefix_rfl
      · rw [Ledger.served_act settings.capacity hvalid hact]
        exact hrefines.act hvalid hact hbefore hafter

/-- A conversation answers each accepted message once, in the order of sending, with what a direct
call answers, and every reply that was not cancelled in time settles with the answer to its own
message. What does not nest too deep reads alike over both kinds of links. -/
theorem answers_direct_calls
    (hfits : service.Fits settings.wire
      ((Ledger.run settings.capacity actions).accepted.map Posting.message) start) :
    let ledger := Ledger.run settings.capacity actions
    let conversation := run service settings next actions
    let direct := (service.carryOutAll settings.wire (ledger.served.map Posting.message) start).1
    -- Answers and service are those of direct calls.
    conversation.answers.map Delivery.request =
        ledger.served.map (fun posting => some posting.message.request) ∧
      List.Forall₂ Outcome.Copied (direct.1.map (relayed settings.wire))
        (conversation.answers.map Delivery.outcome) ∧
      direct.2.Mirrors conversation.network.service ∧
      -- The client is told what is accepted, and has a reply for each accepted message.
      (∃ client session, conversation.network.clients = [client] ∧
        client.session = some session ∧
        (∀ command, (client.sendOver session command).1 =
          if (ledger.post settings.capacity command).1 then .ok ledger.accepted.length
          else .error .queueFull) ∧
        client.channel.sent = ledger.accepted.length ∧
        client.replies.map Reply.request =
          ledger.accepted.map (fun posting => posting.message.request) ∧
        (Ledger.TimelyThroughout settings.capacity actions →
          ∀ (i : Nat) reply, client.replies[i]? = some reply →
            reply.settlement = ledger.settlement conversation.answers i)) ∧
      -- Reading on answers everything.
      (∀ count, ledger.waiting.length ≤ count →
        (run service settings next (actions ++ List.replicate count .read)).answers.map
            Delivery.request =
          ledger.accepted.map fun posting => some posting.message.request) ∧
      -- Without encoding the same conversation goes the same way, unless something nests too deep.
      ((∀ posting ∈ ledger.served, ¬ posting.message.TooDeep) →
        let plain := run service settings.withoutWire next actions
        List.Forall₂ Outcome.Copied (direct.1.map (relayed false))
            (plain.answers.map Delivery.outcome) ∧
          direct.2.Mirrors plain.network.service) ∧
      ∀ outcome : Outcome, (∀ value, outcome = .ok value → depthOf [value] ≤ maxDepth) →
        relayed settings.wire outcome = relayed false outcome := by
  intro ledger conversation direct
  have hrefines := run_refines service settings next start actions hfits
  obtain ⟨client, session, hclients, hkeeps, hresolves⟩ := hrefines.linked
  refine ⟨hrefines.requests, hrefines.outcomes, hrefines.service,
    ⟨client, session, hclients, hkeeps.opened, hkeeps.sendOver_fst, hkeeps.sent, hkeeps.requests,
      fun htimely => (hresolves htimely).settled⟩, fun count hcount => ?_, fun hshallow => ?_,
    fun outcome hvalue => relayed_shallow hvalue settings.wire⟩
  · have hserved := Ledger.served_reads settings.capacity actions hcount
    have haccepted := congrArg Ledger.accepted (Ledger.run_reads settings.capacity actions count)
    rw [← haccepted] at hfits
    rw [(run_refines service settings next start _ hfits).requests, hserved]
  · have hplain := run_refines service settings.withoutWire next start actions .plain
    have hdirect : service.carryOutAll settings.wire (ledger.served.map Posting.message) =
        service.carryOutAll false (ledger.served.map Posting.message) := by
      refine service.carryOutAll_shallow settings.wire fun message hmessage => ?_
      obtain ⟨posting, hposting, rfl⟩ := List.mem_map.mp hmessage
      exact hshallow posting hposting
    have hsame : direct =
        (service.carryOutAll false (ledger.served.map Posting.message) start).1 := by
      simp only [direct, hdirect]
    rw [hsame]
    exact ⟨hplain.outcomes, hplain.service⟩

/-! ### A short conversation -/

/-- Save a collection, send what nests too deep, sync and cancel this; then everything is read. -/
def shortTalk : List (ClientAction Empty) :=
  [.send ⟨.collection, CollectionCommand.save.number,
      [.string "a", .string "Collections", .collection (.node 3 .idlist [] [] [1, 2])]⟩,
    .send ⟨.collection, CollectionCommand.list.number, [.tower maxDepth]⟩,
    .send ⟨.sync, syncCommand, []⟩,
    .cancel 2,
    .read, .read, .read]

/-- The messages that it sends. -/
def shortTalkMessages : List Message :=
  [⟨1, .collection, CollectionCommand.save.number,
      [.string "a", .string "Collections", .collection (.node 3 .idlist [] [] [1, 2])]⟩,
    ⟨2, .collection, CollectionCommand.list.number, [.tower maxDepth]⟩,
    ⟨3, .sync, syncCommand, []⟩]

/-- A service without entries. -/
def bareService : Service := .create {} { working := [] }

theorem carryOutAll_shortTalk :
    (bareService.carryOutAll true shortTalkMessages 9).1.1 =
      [.ok .none, .error (.wire .nestingTooDeep), .ok .none] := by
  have hsave : ¬ Message.TooDeep ⟨1, .collection, CollectionCommand.save.number,
      [.string "a", .string "Collections", .collection (.node 3 .idlist [] [] [1, 2])]⟩ := by
    decide
  have htower : Message.TooDeep ⟨2, .collection, CollectionCommand.list.number,
      [.tower maxDepth]⟩ := by
    simp [Message.TooDeep, depthOf, levelsOfItems, Value.levels, Value.levels_tower, Nat.add_assoc]
  have hsync : ¬ Message.TooDeep ⟨3, .sync, syncCommand, []⟩ := by decide
  simp only [shortTalkMessages, Service.carryOutAll, Service.carryOut_shallow hsave,
    Service.carryOut_tooDeep htower, Service.carryOut_shallow hsync, bind, StateT.bind]
  rfl

theorem fits_shortTalk : bareService.Fits true shortTalkMessages 9 where
  sound _ := Service.sound_create {} { working := [] }
  args _ := by
    simp only [shortTalkMessages, List.forall_mem_cons]
    refine ⟨⟨⟨?_, ?_⟩, ?_, by decide⟩, transmissible_tower (maxDepth + 1),
      ⟨⟨?_, ?_⟩, ?_, by decide⟩, List.forall_mem_nil _⟩
    all_goals
      simp [WellShared, SharedNodes, nodesOfItems, nodesOfEntries, nodesOfOperands, Value.nodes,
        Collection.nodes, partsOfItems, partsOfEntries, partsOfOperands, Value.parts,
        Collection.parts, Value.Keyed, Dict.Distinct, Dict.keys, Collection.attributes,
        Value.Sized, Collection.ids, Collection.operands]
    decide
  compact _ := by
    have hnone : Compact [.none] := ⟨by simp [partsOfItems, Value.parts, Value.Sized], by decide⟩
    have herror : Compact [.error (Error.wire .nestingTooDeep).message] :=
      ⟨by simp [partsOfItems, Value.parts, Value.Sized]; decide, by decide⟩
    rw [carryOutAll_shortTalk]
    simp only [List.forall_mem_cons]
    exact ⟨hnone, herror, hnone, List.forall_mem_nil _⟩

/-- The second message fails for its depth, and the reply to the third stays cancelled. -/
theorem answers_direct_calls_shortTalk :
    bareService.Fits true ((Ledger.run 256 shortTalk).accepted.map Posting.message) 9 ∧
      Ledger.TimelyThroughout 256 shortTalk ∧
      List.Forall₂ Outcome.Copied
        [.ok .none, .error (.remote "Codec error: Nesting too deep"), .ok .none]
        ((run bareService {} 30 shortTalk).answers.map Delivery.outcome) ∧
      ∃ client, (run bareService {} 30 shortTalk).network.clients = [client] ∧
        ∀ (i : Nat) reply, client.replies[i]? = some reply → reply.settlement =
          (Ledger.run 256 shortTalk).settlement (run bareService {} 30 shortTalk).answers i := by
  have hmessages : (Ledger.run 256 shortTalk).accepted.map Posting.message = shortTalkMessages :=
    rfl
  have hserved : (Ledger.run 256 shortTalk).served.map Posting.message = shortTalkMessages := rfl
  have hfits : bareService.Fits true ((Ledger.run 256 shortTalk).accepted.map Posting.message) 9 :=
    hmessages.symm ▸ fits_shortTalk
  have htimely : Ledger.TimelyThroughout 256 shortTalk :=
    Ledger.timelyThroughout_of_length_lt (by simp [shortTalk]) 256
  have hdirect := carryOutAll_shortTalk
  rw [← hserved] at hdirect
  obtain ⟨-, houtcomes, -, ⟨client, session, hclients, -, -, -, -, hsettled⟩, -⟩ :=
    answers_direct_calls bareService {} 30 9 shortTalk hfits
  refine ⟨hfits, htimely, ?_, client, hclients, hsettled htimely⟩
  simp only [hdirect] at houtcomes
  exact houtcomes

end Conversation

end MediaCatalog
