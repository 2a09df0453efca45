import MediaCatalog.Client.Settings
import MediaCatalog.Client.Reply
import MediaCatalog.Client.Request
import MediaCatalog.Object.Registry
import MediaCatalog.Wire.Message

/-!
Sessions of a client. A client sends messages over a channel and keeps, for each
request on the way, the reply that waits for its answer. Broadcasts of the server
are emitted again on an object of the session, to those who subscribed.

Replies belong to whoever sent the request and outlive the session; the
session only knows which of them wait. What callbacks and subscribers get to
see is kept as a list of events.
-/

namespace MediaCatalog

/-- What a client sends messages over. -/
class Channel (σ : Type) where
  isConnected : σ → Bool
  /-- Take a message, or refuse it. -/
  send : σ → Message → Except Error Unit × σ

/-- The state of an open session with subscribers `η`. -/
structure Session (η : Type) where
  settings : ClientSettings
  nextRequest : UInt32 := 1
  /-- The position, among the client's replies, of the reply to each request that
  waits for its answer. -/
  pending : Std.TreeMap UInt32 Nat := {}
  /-- Signals that the server was asked to forward. -/
  requested : List UInt32 := []
  /-- Broadcasts are emitted here. -/
  broadcasts : Registry Empty η Empty

def Session.open {η : Type} (settings : ClientSettings) : Session η :=
  { settings, broadcasts := { name := settings.name ++ ".broadcasts" } }

/-- What a callback or a subscriber got to see. -/
inductive ClientEvent (η : Type) where
  /-- The callback of a reply ran. -/
  | replied (request : UInt32) (outcome : Except Error Value)
  /-- A subscriber was given a broadcast by an object. -/
  | broadcast (subscriber : η) (object : String) (payload : Value)

structure Client (σ η : Type) where
  channel : σ
  /-- None once the session was dropped. -/
  session : Option (Session η)
  /-- The replies handed out, in the order of their requests. -/
  replies : List Reply := []
  /-- What callbacks and subscribers got to see, the oldest first. -/
  events : List (ClientEvent η) := []

namespace Client

variable {σ η : Type}

def create (channel : σ) (settings : ClientSettings) : Client σ η :=
  { channel, session := some (Session.open settings) }

/-! ### Replies -/

def reply? (client : Client σ η) (index : Nat) : Option Reply := client.replies[index]?

/-- Replace a reply, and note its callback if it ran. -/
def settle (client : Client σ η) (index : Nat) (reply : Reply)
    (callback : Option (Except Error Value)) : Client σ η :=
  { client with
    replies := client.replies.set index reply
    events :=
      client.events ++ (callback.map (ClientEvent.replied reply.request)).toList }

/-- Complete the reply at a position. -/
def complete (client : Client σ η) (index : Nat) (outcome : Except Error Value) :
    Client σ η :=
  match client.reply? index with
  | none => client
  | some reply =>
    let (reply, callback) := reply.complete outcome
    client.settle index reply callback

/-- Register the callback of the reply at a position. -/
def onComplete (client : Client σ η) (index : Nat) (reply : Reply) :
    Except Error (Client σ η) := do
  let (reply, callback) ← reply.onComplete
  return client.settle index reply callback

/-- Change the session, if there is one. -/
def modifySession (client : Client σ η) (change : Session η → Session η) :
    Client σ η :=
  { client with session := client.session.map change }

/-- Cancel the reply at a position; the session forgets the request. -/
def cancel (client : Client σ η) (index : Nat) : Client σ η :=
  match client.reply? index with
  | none => client
  | some reply =>
    let (cancelled, told) := reply.cancel
    let client := client.settle index cancelled none
    if told then
      client.modifySession fun session =>
        { session with pending := session.pending.erase reply.request }
    else client

/-! ### Sending -/

variable [Channel σ]

def isConnected (client : Client σ η) : Bool := Channel.isConnected client.channel

/-- Send a command over the session. The reply waits before the message leaves;
a message that is refused leaves no reply behind. -/
def sendOver (client : Client σ η) (session : Session η) (command : Command) :
    Except Error Nat × Client σ η :=
  if !client.isConnected then (.error .notConnected, client)
  else
    let request := session.nextRequest
    let index := client.replies.length
    let waiting :=
      { session with
        nextRequest := request + 1
        pending := session.pending.insert request index }
    let message : Message :=
      { request, object := command.object, command := command.number, args := command.args }
    match Channel.send client.channel message with
    | (.ok (), channel) =>
      (.ok index,
        { client with
          channel
          session := some waiting
          replies := client.replies ++ [{ request, hooked := true }] })
    | (.error error, channel) =>
      (.error error,
        { client with
          channel
          session := some { waiting with pending := waiting.pending.erase request } })

/-- Make a request. A lost session is reported before a wrong argument. -/
def request (client : Client σ η) (session : Session η) (request : Request) :
    Build (Except Error Nat × Client σ η) :=
  if !client.isConnected then return (.error .notConnected, client)
  else
    match request.check with
    | .error error => return (.error error, client)
    | .ok () => return client.sendOver session (← request.command)

/-! ### Broadcasts -/

/-- Connect a subscriber to the broadcasts of a signal. -/
def attach (client : Client σ η) (session : Session η) (signal : UInt32)
    (subscriber : η) : Subscription × Client σ η :=
  let (subscription, broadcasts) := session.broadcasts.connect signal subscriber none
  (subscription, { client with session := some { session with broadcasts } })

/-- Subscribe to a signal. The server is asked to forward it the first time; if the
request cannot be sent, it will be asked again the next time. -/
def subscribe (client : Client σ η) (session : Session η) (signal : SignalKind)
    (subscriber : η) : Except Error Subscription × Client σ η :=
  if !client.isConnected then (.error .notConnected, client)
  else
    let number := signal.number
    if number ∈ session.requested then
      let (subscription, client) := client.attach session number subscriber
      (.ok subscription, client)
    else
      let command : Command :=
        { object := .signal, number := forwardCommand, args := [.int number.toUInt64.toInt64] }
      match client.sendOver session command with
      | (.error error, client) => (.error error, client)
      | (.ok _, client) =>
        match client.session with
        | none => (.error .notConnected, client)
        | some session =>
          let asked := { session with requested := number :: session.requested }
          let (subscription, client) := client.attach asked number subscriber
          (.ok subscription, client)

omit [Channel σ]

/-- End a subscription. It may have ended before, with the session at the latest. -/
def unsubscribe (client : Client σ η) (subscription : Subscription) :
    Except Error (Client σ η) :=
  match client.session with
  | none => .error (.notFound "broadcast subscription")
  | some session => do
    let broadcasts ← session.broadcasts.unsubscribe subscription
    return { client with session := some { session with broadcasts } }

/-! ### Receiving -/

/-- Take what the server delivers. An answer to a request that does not wait is
dropped, and so is everything once the session was. -/
def receive (client : Client σ η) (delivery : Delivery) : Client σ η :=
  match client.session with
  | none => client
  | some session =>
    match delivery.request with
    | some request =>
      match session.pending[request]? with
      | none => client
      | some index =>
        let remaining := { session with pending := session.pending.erase request }
        { client with session := some remaining }.complete index delivery.outcome
    | none =>
      let emitted := (session.broadcasts.listeners delivery.number).map fun listener =>
        ClientEvent.broadcast listener.handler session.broadcasts.name delivery.payload
      { client with events := client.events ++ emitted }

/-- The channel was lost: all subscriptions end and all waiting replies fail. -/
def disconnected (client : Client σ η) : Client σ η :=
  match client.session with
  | none => client
  | some session =>
    let broadcasts := session.requested.foldl
      (fun broadcasts signal => (broadcasts.disconnectAll signal).2) session.broadcasts
    let quiet := { session with pending := {}, requested := [], broadcasts }
    session.pending.toList.foldl
      (fun client (_, index) => client.complete index (.error .notConnected))
      { client with session := some quiet }

/-- Drop the session. Its replies stay with whoever has them. -/
def dropSession (client : Client σ η) : Client σ η := { client with session := none }

end Client

end MediaCatalog
