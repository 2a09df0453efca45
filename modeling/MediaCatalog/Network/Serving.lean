import MediaCatalog.Network.Basic

/-!
Readers. The reader of each link takes its messages one by one, calls the service
and delivers the answer. Requests to forward a signal are served here: from then on
each emission of the signal is delivered to that client.
-/

namespace MediaCatalog.Network

variable {η : Type}

/-- The signal that a request to forward names. -/
def signalArg? (args : List Value) : Option SignalKind := do
  let number ← (← args.head?).int?
  guard (0 ≤ number.toInt ∧ number.toInt.toNat < UInt32.size)
  SignalKind.ofNumber? (UInt32.ofNat number.toInt.toNat)

/-- Serve a request to the signal object. A signal is forwarded once to a client,
however often it asks. -/
def serveSignal (network : Network η) (index : Nat) (client : LinkedClient η)
    (command : UInt32) (args : List Value) : Except Error Value × Network η :=
  if command ≠ forwardCommand then (.ok .none, network)
  else
    match signalArg? args with
    | none =>
      (.error (.invalidArgument "broadcast request needs a known signal id"), network)
    | some signal =>
      let number := signal.number
      if number ∈ client.channel.forwarded then (.ok .none, network)
      else
        let channel :=
          { client.channel with forwarded := client.channel.forwarded ++ [number] }
        (.ok .none,
          { network with service := network.service.connect number (.forwarder index) }.setClient
            index { client with channel })

/-- Carry out a message of a client and answer it. -/
def answer (network : Network η) (index : Nat) (client : LinkedClient η)
    (message : Message) : Build (Network η) := do
  let (outcome, network) ←
    match message.object with
    | .signal => pure (network.serveSignal index client message.command message.args)
    | object => network.call object message.command message.args
  network.deliver index (Delivery.reply message.request message.object.number outcome)

/-- The message in a frame. -/
def unpack : Frame → Build (Except WireError Message)
  | .plain message => return .ok message
  | .encoded bytes => Message.decode bytes

/-- Who asked, as far as the frame can tell. -/
def sender? : Frame → Option (UInt32 × UInt32)
  | .plain message => some (message.request, message.object.number)
  | .encoded bytes => Message.peekHeader? bytes

/-- Serve a frame. One that cannot be decoded is answered if its header names the
request; one that comes after the link was closed has no effect. -/
def serve (network : Network η) (index : Nat) (frame : Frame) : Build (Network η) := do
  match ← unpack frame with
  | .error cause =>
    match sender? frame with
    | none => return network
    | some (request, object) =>
      network.deliver index (Delivery.reply request object (.error (.wire cause)))
  | .ok message =>
    match network.client? index with
    | none => return network
    | some client =>
      if client.channel.connected then network.answer index client message
      else return network

/-- The reader of a link takes the oldest frame and serves it. -/
def readOne (network : Network η) (index : Nat) : Build (Network η) :=
  match network.client? index with
  | none => return network
  | some client =>
    match client.channel.queue with
    | [] => return network
    | frame :: rest =>
      let channel := { client.channel with queue := rest }
      (network.setClient index { client with channel }).serve index frame

/-- The reader of a link takes `count` frames. -/
def readMany (network : Network η) (index : Nat) : (count : Nat) → Build (Network η)
  | 0 => return network
  | count + 1 => do (← network.readOne index).readMany index count

/-- The reader of a link serves all frames that wait. Serving sends no messages,
so none are added meanwhile. -/
def read (network : Network η) (index : Nat) : Build (Network η) :=
  match network.client? index with
  | none => return network
  | some client => network.readMany index client.channel.queue.length

/-- All readers serve what waits, in the order of the clients. -/
def readAll (network : Network η) : Build (Network η) :=
  (List.range network.clients.length).foldlM read network

end MediaCatalog.Network
