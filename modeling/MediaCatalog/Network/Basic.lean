import MediaCatalog.Network.Link
import MediaCatalog.Server.Call

/-!
A service with clients in the same process, each linked to it. What the service
announces is delivered as a broadcast to the clients that asked for it.

What is delivered over a link that encodes is encoded and decoded on the way. A
reply that does not survive this is replaced by one that says so, and a broadcast
that does not is lost.
-/

namespace MediaCatalog

/-- A client linked to the service. -/
abbrev LinkedClient (η : Type) := Client Link η

structure Network (η : Type) where
  service : Service
  clients : List (LinkedClient η) := []

namespace Network

variable {η : Type}

/-- A network with one client for each of the settings. -/
def create (service : Service) (clients : List ClientSettings) : Network η :=
  { service, clients := clients.map fun settings => Client.create { settings } settings }

def client? (network : Network η) (index : Nat) : Option (LinkedClient η) :=
  network.clients[index]?

def setClient (network : Network η) (index : Nat) (client : LinkedClient η) : Network η :=
  { network with clients := network.clients.set index client }

/-! ### Delivering -/

/-- What arrives of a delivery that passes through the wire. -/
def afterWire (delivery : Delivery) : Build (Option Delivery) := do
  match ← Delivery.decode delivery.encode with
  | .ok decoded => return some decoded
  | .error cause =>
    return delivery.request.map fun request =>
      Delivery.reply request delivery.object (.error (.wire cause))

/-- What arrives at a client. -/
def arrival (client : LinkedClient η) (delivery : Delivery) : Build (Option Delivery) :=
  if client.channel.settings.wire then afterWire delivery else return some delivery

/-- Deliver to a client. Nothing reaches a client whose link is closed. -/
def deliver (network : Network η) (index : Nat) (delivery : Delivery) :
    Build (Network η) := do
  match network.client? index with
  | none => return network
  | some client =>
    match ← arrival client delivery with
    | none => return network
    | some delivery =>
      if client.channel.connected then
        return network.setClient index (client.receive delivery)
      else return network

/-- Forward an emission to a listener. -/
def forward (signal : UInt32) (payload : Value) (network : Network η) (observer : Observer) :
    Build (Network η) :=
  match observer with
  | .direct _ => return network
  | .forwarder index =>
    network.deliver index (Delivery.broadcast ServerObject.collection.number signal payload)

/-- Forward an announcement to everyone it is for. -/
def publish (network : Network η) (announcement : Announcement) : Build (Network η) :=
  announcement.listeners.foldlM (forward announcement.signal announcement.payload) network

/-- Call a command of the service. -/
def call (network : Network η) (object : ServerObject) (command : UInt32)
    (args : List Value) : Build (Except Error Value × Network η) := do
  let answer ← network.service.call object command args
  let network := { network with service := answer.service }
  match answer.announcement with
  | none => return (answer.outcome, network)
  | some announcement => return (answer.outcome, ← network.publish announcement)

/-! ### Closing -/

/-- Stop forwarding to a client. -/
def detach (network : Network η) (index : Nat) (client : LinkedClient η) : Network η :=
  let service := client.channel.forwarded.foldl
    (fun service signal => service.disconnect signal (.forwarder index)) network.service
  { network with service }

/-- Close the link of a client: forwarding ends and waiting replies fail. Closing
again changes nothing. -/
def close (network : Network η) (index : Nat) : Network η :=
  match network.client? index with
  | none => network
  | some client =>
    if !client.channel.connected then network
    else
      let channel := { client.channel with connected := false, forwarded := [] }
      (network.detach index client).setClient index { client with channel }.disconnected

/-- Drop a client's session and link. Its replies stay as they are. -/
def drop (network : Network η) (index : Nat) : Network η :=
  match network.client? index with
  | none => network
  | some client =>
    let channel := { client.channel with connected := false, queue := [], forwarded := [] }
    (network.detach index client).setClient index { client with channel }.dropSession

end Network

end MediaCatalog
