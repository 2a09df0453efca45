import MediaCatalog.Wire.Address
import MediaCatalog.Value.Equality
import MediaCatalog.Wire.Reader
import MediaCatalog.Wire.Writer

/-!
Frames. A `Message` travels from client to server, a `Delivery` back. Each is
a header of fixed length before encoded values; bytes after them are ignored.

    Message:  request 4 | object 4 | command 4 | list of arguments
    Delivery: flags 1 | request 4 | object 4 | number 4 | payload

The lowest flag tells a reply, which answers the request, from a broadcast.
-/

namespace MediaCatalog

open Wire

/-- A command sent to the server. -/
structure Message where
  request : UInt32
  object : ServerObject
  command : UInt32
  args : List Value

namespace Message

instance : BEq Message where
  beq left right :=
    left.request == right.request && left.object == right.object
      && left.command == right.command && equalItems left.args right.args

def encode (message : Message) : List UInt8 :=
  word message.request.toNat ++ word message.object.number.toNat
    ++ word message.command.toNat ++ (Value.list message.args).encode

/-- Request and object number of an encoded message. They can be read even when
the rest of it cannot. -/
def peekHeader? (input : List UInt8) : Option (UInt32 × UInt32) := do
  let (request, rest) ← splitAt? 4 input
  let (object, _) ← splitAt? 4 rest
  return (UInt32.ofNat (ofBigEndian request), UInt32.ofNat (ofBigEndian object))

def decode (input : List UInt8) : Build (Except WireError Message) := do
  match splitAt? 12 input with
  | none => return .error .unexpectedEnd
  | some (header, body) =>
    let field (index : Nat) := UInt32.ofNat (ofBigEndian ((header.drop (4 * index)).take 4))
    match ServerObject.ofNumber? (field 1) with
    | none => return .error (.unknownObject (field 1))
    | some object =>
      match ← MediaCatalog.decode body with
      | .error error => return .error error
      | .ok (.list args) =>
        return .ok { request := field 0, object, command := field 2, args }
      | .ok _ => return .error .malformedMessage

end Message

/-- How a reply ended. -/
inductive ReplyCode where
  | ok
  | error
  | notFound
  deriving DecidableEq, Repr

def ReplyCode.number : ReplyCode → UInt32
  | ok => 0
  | error => 1
  | notFound => 2

/-- A reply or a broadcast, delivered to a client. -/
structure Delivery where
  /-- The request answered; none for a broadcast. -/
  request : Option UInt32
  object : UInt32
  /-- A reply's code, or a broadcast's signal. -/
  number : UInt32
  payload : Value

namespace Delivery

instance : BEq Delivery where
  beq left right :=
    left.request == right.request && left.object == right.object
      && left.number == right.number && left.payload == right.payload

/-- The reply that carries an outcome. A lookup miss and a message of the server
keep their kind; every other error travels as its text. -/
def reply (request object : UInt32) (outcome : Except Error Value) : Delivery :=
  let (code, payload) :=
    match outcome with
    | .ok value => (ReplyCode.ok, value)
    | .error (.notFound what) => (.notFound, .error what)
    | .error (.remote reason) => (.error, .error reason)
    | .error other => (.error, .error other.message)
  { request := some request, object, number := code.number, payload }

def broadcast (object signal : UInt32) (payload : Value) : Delivery :=
  { request := none, object, number := signal, payload }

/-- The text of a failed reply. -/
def reason (delivery : Delivery) : String :=
  match delivery.payload with
  | .error message => message
  | .string text => text
  | _ => "unknown error"

/-- The outcome that a reply carries. -/
def outcome (delivery : Delivery) : Except Error Value :=
  if delivery.number = ReplyCode.ok.number then .ok delivery.payload
  else if delivery.number = ReplyCode.notFound.number then .error (.notFound delivery.reason)
  else .error (.remote delivery.reason)

def encode (delivery : Delivery) : List UInt8 :=
  (if delivery.request.isSome then 1 else 0) :: word (delivery.request.getD 0).toNat
    ++ word delivery.object.toNat ++ word delivery.number.toNat ++ delivery.payload.encode

def decode (input : List UInt8) : Build (Except WireError Delivery) := do
  match splitAt? 13 input with
  | none => return .error .unexpectedEnd
  | some (header, body) =>
    let field (index : Nat) := UInt32.ofNat (ofBigEndian ((header.drop (4 * index + 1)).take 4))
    match ← MediaCatalog.decode body with
    | .error error => return .error error
    | .ok payload =>
      let isReply := (header.headD 0) % 2 == 1
      return .ok
        { request := if isReply then some (field 0) else none
          object := field 1
          number := field 2
          payload }

end Delivery

end MediaCatalog
