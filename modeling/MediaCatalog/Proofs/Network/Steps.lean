import Mathlib.Logic.Relation
import MediaCatalog.Proofs.Client.Knowledge
import MediaCatalog.Proofs.Network.Turn
import MediaCatalog.Proofs.Object.Log
import MediaCatalog.Proofs.Server.Announcements

/-!
Steps of a network. Clients act, join and leave, readers take messages, and the owner of the service
calls it, emits signals and edits its tables, in any order. Apart from what a client does by itself,
every step comes down to a few small changes: the service changes without forwarding more, a client
whose link is open hears something or is forwarded a signal, a link loses the frame that its reader
took, or a link closes.
-/

namespace MediaCatalog

variable {η : Type}

/-! ### Steps -/

/-- A deed with handlers of another kind. -/
def Registry.Deed.map {κ γ θ : Type} (change : η → θ) : Registry.Deed κ η γ → Registry.Deed κ θ γ
  | .register command handler => .register command handler
  | .connect signal handler context => .connect signal (change handler) context
  | .disconnect signal handler context => .disconnect signal (change handler) context
  | .unsubscribe subscription => .unsubscribe subscription
  | .disconnectAll signal => .disconnectAll signal

/-- One thing that happens on a network. -/
inductive NetworkStep (η : Type) where
  /-- A client acts. -/
  | act (index : Nat) (deed : { deed : ClientStep Link η // deed.own })
  /-- A client makes a request. -/
  | request (index : Nat) (request : Request)
  /-- Somebody sends a message over the link of a client, past its session. -/
  | post (index : Nat) (message : Message)
  /-- The reader of a link takes a frame. -/
  | read (index : Nat)
  /-- The owner of the service calls a command. -/
  | call (object : ServerObject) (command : UInt32) (args : List Value)
  /-- The owner of the service emits a signal of the collection object. -/
  | emit (signal : UInt32) (payload : Value)
  | library (library : Library)
  | files (files : Playlist.FileTree)
  /-- The tables of the collection object are edited, by listeners of the same process. -/
  | tables (deed : Registry.Deed CommandHandler String Empty)
  | close (index : Nat)
  | drop (index : Nat)
  /-- A client is linked to the service. -/
  | join (settings : ClientSettings)

/-- What a client does by itself. -/
def NetworkStep.IsBy (index : Nat) : NetworkStep η → Prop
  | .act actor _ | .request actor _ => actor = index
  | _ => False

namespace Network

/-- A client acts. -/
def act (network : Network η) (index : Nat) (deed : ClientStep Link η) : Network η :=
  match network.client? index with
  | none => network
  | some client => network.setClient index (client.step deed)

/-- A client with a session makes a request. -/
def ask (network : Network η) (index : Nat) (request : Request) : Build (Network η) :=
  match network.client? index with
  | none => return network
  | some client =>
    match client.session with
    | none => return network
    | some session => return network.setClient index (← client.request session request).2

/-- A message is sent over a link. -/
def post (network : Network η) (index : Nat) (message : Message) : Network η :=
  match network.client? index with
  | none => network
  | some client =>
    network.setClient index { client with channel := (Channel.send client.channel message).2 }

/-- The emission of a signal to those who listen now. -/
def emission (network : Network η) (signal : UInt32) (payload : Value) : Announcement :=
  { signal
    payload
    listeners := (network.service.collection.listeners signal).map Listener.handler }

def withCollection (network : Network η) (collection : ServedObject) : Network η :=
  { network with service := { network.service with collection } }

def step (network : Network η) : NetworkStep η → Build (Network η)
  | .act index deed => return network.act index deed
  | .request index request => network.ask index request
  | .post index message => return network.post index message
  | .read index => network.readOne index
  | .call object command args => return (← network.call object command args).2
  | .emit signal payload => network.publish (network.emission signal payload)
  | .library library => return { network with service := { network.service with library } }
  | .files files => return { network with service := { network.service with files } }
  | .tables deed =>
    return network.withCollection (network.service.collection.perform (deed.map .direct)).2
  | .close index => return network.close index
  | .drop index => return network.drop index
  | .join settings =>
    return { network with clients := network.clients ++ [Client.create { settings } settings] }

/-- The network after some steps. -/
def run (network : Network η) (steps : List (NetworkStep η)) : Build (Network η) :=
  steps.foldlM step network

theorem run_cons (network : Network η) (step : NetworkStep η) (steps : List (NetworkStep η))
    (next : NodeId) :
    network.run (step :: steps) next =
      (network.step step next).1.run steps (network.step step next).2 :=
  rfl

end Network

/-! ### Forwarders -/

/-- A test for the connections of an observer. -/
def Listener.isOf (observer : Observer) (listener : Listener Observer Empty) : Bool :=
  listener.handler = observer

/-- How many forwarders of a signal to a client are connected. -/
def Registry.forwarders (collection : ServedObject) (signal : UInt32) (index : Nat) : Nat :=
  (collection.connections signal).countP (Listener.isOf (.forwarder index))

namespace Registry

variable {collection collection' : ServedObject} {signal : UInt32} {index : Nat}

theorem forwarders_le_of_sublist
    (h : (collection'.connections signal).Sublist (collection.connections signal)) :
    Registry.forwarders collection' signal index ≤ Registry.forwarders collection signal index :=
  h.countP_le

/-- Who listens in the same process forwards nothing. -/
theorem forwarders_connect_direct (collection : ServedObject) (place : UInt32) (name : String)
    (context : Option Empty) (signal : UInt32) (index : Nat) :
    Registry.forwarders (collection.connect place (.direct name) context).2 signal index =
      Registry.forwarders collection signal index := by
  rw [forwarders, forwarders, connections_connect]
  split
  · next hsame => simp [hsame, Listener.isOf]
  · rfl

theorem forwarders_perform_le (collection : ServedObject)
    (deed : Deed CommandHandler String Empty) (signal : UInt32) (index : Nat) :
    Registry.forwarders (collection.perform (deed.map .direct)).2 signal index ≤
      Registry.forwarders collection signal index := by
  cases deed with
  | register command handler =>
      rw [Deed.map, perform, register]
      split
      · exact Nat.le_refl _
      · split <;> exact Nat.le_refl _
  | connect place name context =>
      exact Nat.le_of_eq (forwarders_connect_direct collection place name context signal index)
  | disconnect place name context =>
      rw [Deed.map, perform]
      cases hdisconnect : collection.disconnect place (.direct name) context with
      | error cause => exact Nat.le_refl _
      | ok changed => exact forwarders_le_of_sublist (sublist_of_disconnect hdisconnect signal)
  | unsubscribe subscription =>
      rw [Deed.map, perform]
      cases hunsubscribe : collection.unsubscribe subscription with
      | error cause => exact Nat.le_refl _
      | ok changed => exact forwarders_le_of_sublist (sublist_of_unsubscribe hunsubscribe signal)
  | disconnectAll place =>
      refine forwarders_le_of_sublist ?_
      rw [Deed.map, perform]
      show ((collection.disconnectAll place).2.connections signal).Sublist _
      rw [connections_disconnectAll]
      split
      · exact List.nil_sublist _
      · exact .refl _

end Registry

/-- A request is sent as a command, or it is refused and nothing changes. -/
theorem Client.request_cases {σ : Type} [Channel σ] (client : Client σ η) (session : Session η)
    (request : Request) (next : NodeId) :
    (client.request session request next).1.2 = client ∨
      ∃ command,
        (client.request session request next).1.2 = (client.sendOver session command).2 := by
  rw [Client.request]
  split
  · exact .inl rfl
  · cases request.check with
    | error error => exact .inl rfl
    | ok _ => exact .inr ⟨(request.command next).1, rfl⟩

namespace Network

/-! ### Changes -/

/-- The small changes that steps consist of. -/
inductive Change : Network η → Network η → Prop where
  /-- The service changes, and forwards no more than before. -/
  | serve {network : Network η} {service : Service}
      (h : ∀ signal index, Registry.forwarders service.collection signal index ≤
        Registry.forwarders network.service.collection signal index) :
      Change network { network with service }
  | hear {network : Network η} {index : Nat} {client : LinkedClient η}
      (hclient : network.client? index = some client)
      (hconnected : client.channel.connected = true) (delivery : Delivery) :
      Change network (network.setClient index (client.receive delivery))
  /-- The service begins to forward a signal to a client. -/
  | forward {network : Network η} {index : Nat} {client : LinkedClient η}
      (hclient : network.client? index = some client)
      (hconnected : client.channel.connected = true) (signal : UInt32) :
      Change network
        ({ network with service := network.service.connect signal (.forwarder index) }.setClient
          index { client with channel := { client.channel with
            forwarded := client.channel.forwarded ++ [signal] } })
  | dequeue {network : Network η} {index : Nat} {client : LinkedClient η}
      (hclient : network.client? index = some client) :
      Change network (network.setClient index (client.withQueue client.channel.queue.tail))
  | post (network : Network η) (index : Nat) (message : Message) :
      Change network (network.post index message)
  | close (network : Network η) (index : Nat) : Change network (network.close index)
  | drop (network : Network η) (index : Nat) : Change network (network.drop index)
  | join (network : Network η) (settings : ClientSettings) :
      Change network
        { network with clients := network.clients ++ [Client.create { settings } settings] }

/-- One network comes of another by small changes. -/
abbrev Becomes : Network η → Network η → Prop := Relation.ReflTransGen Change

open Relation.ReflTransGen (refl single trans)

variable {network : Network η} {index : Nat}

theorem client?_setClient (network : Network η) (index : Nat) (client : LinkedClient η)
    (other : Nat) : (network.setClient index client).client? other =
      if index = other then (network.client? other).map fun _ => client
      else network.client? other := by
  rw [setClient, client?, List.getElem?_set']
  rfl

theorem setClient_self {client : LinkedClient η} (hclient : network.client? index = some client) :
    network.setClient index client = network := by
  obtain ⟨hindex, rfl⟩ := List.getElem?_eq_some_iff.mp hclient
  rw [setClient, List.set_getElem_self]

theorem becomes_deliver (network : Network η) (index : Nat) (delivery : Delivery) (next : NodeId) :
    network.Becomes (network.deliver index delivery next).1 := by
  rw [deliver]
  cases hclient : network.client? index with
  | none => exact refl
  | some client =>
      simp only [bind, StateT.bind]
      generalize arrival client delivery next = result
      obtain ⟨arrived, next⟩ := result
      cases arrived with
      | none => exact refl
      | some arrived =>
          dsimp only
          split
          · next hconnected => exact single (.hear hclient hconnected arrived)
          · exact refl

theorem becomes_publish (network : Network η) (announcement : Announcement) (next : NodeId) :
    network.Becomes (network.publish announcement next).1 := by
  rw [publish]
  induction announcement.listeners generalizing network next with
  | nil => exact refl
  | cons observer rest ih =>
      have hforward : network.Becomes
          (forward announcement.signal announcement.payload network observer next).1 := by
        cases observer with
        | direct name => exact refl
        | forwarder index => exact network.becomes_deliver index _ next
      exact hforward.trans (ih _ _)

theorem becomes_call (network : Network η) (object : ServerObject) (command : UInt32)
    (args : List Value) (next : NodeId) :
    network.Becomes (network.call object command args next).1.2 := by
  obtain ⟨change, hannounces⟩ := network.service.call_announces object command args next
  rw [call]
  simp only [bind, StateT.bind]
  have hserved : network.Becomes
      { network with service := (network.service.call object command args next).1.service } := by
    refine single (.serve fun signal index => Nat.le_of_eq ?_)
    rw [hannounces.collection]
  generalize network.service.call object command args next = result at hserved ⊢
  obtain ⟨⟨outcome, service, announcement⟩, next⟩ := result
  cases announcement with
  | none => exact hserved
  | some announcement => exact hserved.trans (becomes_publish _ announcement next)

section Reading

variable {client : LinkedClient η} (hclient : network.client? index = some client)
include hclient

theorem becomes_serveSignal (hconnected : client.channel.connected = true) (command : UInt32)
    (args : List Value) : network.Becomes (network.serveSignal index client command args).2 := by
  rw [serveSignal]
  split
  · exact refl
  · split
    · exact refl
    · dsimp only
      split
      · exact refl
      · exact single (.forward hclient hconnected _)

theorem becomes_answer (hconnected : client.channel.connected = true) (message : Message)
    (next : NodeId) : network.Becomes (network.answer index client message next).1 := by
  rw [answer]
  cases message.object with
  | signal =>
      have hserved := becomes_serveSignal hclient hconnected message.command message.args
      exact hserved.trans (becomes_deliver _ index _ next)
  | collection =>
      have hcalled := network.becomes_call .collection message.command message.args next
      exact hcalled.trans (becomes_deliver _ index _ _)
  | sync =>
      have hcalled := network.becomes_call .sync message.command message.args next
      exact hcalled.trans (becomes_deliver _ index _ _)

end Reading

theorem becomes_serve (network : Network η) (index : Nat) (frame : Frame) (next : NodeId) :
    network.Becomes (network.serve index frame next).1 := by
  rw [serve]
  simp only [bind, StateT.bind]
  generalize unpack frame next = result
  obtain ⟨unpacked, next⟩ := result
  cases unpacked with
  | error cause =>
      dsimp only
      cases sender? frame with
      | none => exact refl
      | some header => exact network.becomes_deliver index _ next
  | ok message =>
      dsimp only
      cases hclient : network.client? index with
      | none => exact refl
      | some client =>
          dsimp only
          split
          · next hconnected => exact becomes_answer hclient hconnected message next
          · exact refl

theorem becomes_readOne (network : Network η) (index : Nat) (next : NodeId) :
    network.Becomes (network.readOne index next).1 := by
  rw [readOne]
  cases hclient : network.client? index with
  | none => exact refl
  | some client =>
      dsimp only
      cases hqueue : client.channel.queue with
      | nil => exact refl
      | cons frame rest =>
          have hdequeued := Change.dequeue hclient
          rw [hqueue] at hdequeued
          exact (single hdequeued).trans (becomes_serve _ index frame next)

theorem ask_cases (network : Network η) (index : Nat) (request : Request) (next : NodeId) :
    (network.ask index request next).1 = network ∨
      ∃ command, (network.ask index request next).1 = network.act index (.send command) := by
  cases hclient : network.client? index with
  | none => exact .inl (by simp only [ask, hclient]; rfl)
  | some client =>
      cases hopened : client.session with
      | none => exact .inl (by simp only [ask, hclient, hopened]; rfl)
      | some session =>
          have hasked : (network.ask index request next).1 =
              network.setClient index (client.request session request next).1.2 := by
            simp only [ask, hclient, hopened]
            rfl
          rw [hasked]
          rcases client.request_cases session request next with hsame | ⟨command, hsent⟩
          · rw [hsame]
            exact .inl (setClient_self hclient)
          · rw [hsent]
            exact .inr ⟨command, by simp only [act, hclient, Client.step, hopened]⟩

/-- A step is an act of a client, or it consists of small changes. -/
theorem step_cases (network : Network η) (step : NetworkStep η) (next : NodeId) :
    (∃ index deed, deed.own ∧ step.IsBy index ∧
      (network.step step next).1 = network.act index deed) ∨
      network.Becomes (network.step step next).1 := by
  cases step with
  | act index deed => exact .inl ⟨index, deed.1, deed.2, rfl, rfl⟩
  | request index request =>
      rcases network.ask_cases index request next with hsame | ⟨command, hact⟩
      · exact .inr (hsame.symm ▸ refl)
      · exact .inl ⟨index, .send command, rfl, rfl, hact⟩
  | post index message => exact .inr (single (.post network index message))
  | read index => exact .inr (network.becomes_readOne index next)
  | call object command args => exact .inr (network.becomes_call object command args next)
  | emit signal payload => exact .inr (network.becomes_publish _ next)
  | library library => exact .inr (single (.serve fun _ _ => Nat.le_refl _))
  | files files => exact .inr (single (.serve fun _ _ => Nat.le_refl _))
  | tables deed =>
      exact .inr (single (.serve (network.service.collection.forwarders_perform_le deed)))
  | close index => exact .inr (single (.close network index))
  | drop index => exact .inr (single (.drop network index))
  | join settings => exact .inr (single (.join network settings))

end Network

end MediaCatalog
