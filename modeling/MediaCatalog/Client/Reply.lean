import MediaCatalog.Error
import MediaCatalog.Value.Basic

/-!
Replies in waiting. A reply settles at most once: it is completed, it fails, or
it is cancelled. One callback can be registered for it, which runs at most once,
with the result; a cancelled reply runs none. When a reply is cancelled its owner
is told, so that it can forget the request.
-/

namespace MediaCatalog

/-- Where a reply stands. -/
inductive ReplyStatus where
  | sent
  | completed
  | failed
  | cancelled
  deriving DecidableEq, Repr

def ReplyStatus.name : ReplyStatus → String
  | sent => "Sent"
  | completed => "Completed"
  | failed => "Failed"
  | cancelled => "Cancelled"

/-- What a reply came to. -/
inductive Settlement where
  | sent
  | result (outcome : Except Error Value)
  | cancelled

/-- Where the callback of a reply stands. -/
inductive Callback where
  | unset
  | waiting
  /-- A callback was registered; it has run, or never will. -/
  | spent
  deriving DecidableEq, Repr

structure Reply where
  request : UInt32
  settlement : Settlement := .sent
  callback : Callback := .unset
  /-- The owner wants to be told of a cancel. -/
  hooked : Bool := false

instance : Inhabited Reply := ⟨{ request := 0 }⟩

namespace Reply

def status (reply : Reply) : ReplyStatus :=
  match reply.settlement with
  | .sent => .sent
  | .result (.ok _) => .completed
  | .result (.error _) => .failed
  | .cancelled => .cancelled

/-- Register the callback. The result is given if the callback runs at once. -/
def onComplete (reply : Reply) : Except Error (Reply × Option (Except Error Value)) :=
  match reply.callback with
  | .unset =>
    match reply.settlement with
    | .sent => .ok ({ reply with callback := .waiting }, none)
    | .result outcome => .ok ({ reply with callback := .spent }, some outcome)
    | .cancelled => .ok ({ reply with callback := .spent }, none)
  | _ => .error (.invalidArgument s!"reply {reply.request} already has a callback")

/-- Settle with an outcome. The outcome is given if the waiting callback runs. A
reply that is settled already stays as it is. -/
def complete (reply : Reply) (outcome : Except Error Value) :
    Reply × Option (Except Error Value) :=
  match reply.settlement with
  | .sent =>
    let settled := { reply with settlement := .result outcome, hooked := false }
    match reply.callback with
    | .waiting => ({ settled with callback := .spent }, some outcome)
    | _ => (settled, none)
  | _ => (reply, none)

/-- Stop waiting. Tells whether the owner is told. -/
def cancel (reply : Reply) : Reply × Bool :=
  match reply.settlement with
  | .sent =>
    ({ reply with
        settlement := .cancelled
        callback := if reply.callback = .waiting then .spent else reply.callback
        hooked := false },
      reply.hooked)
  | _ => (reply, false)

/-- The outcome, once there is one. -/
def poll (reply : Reply) : Option (Except Error Value) :=
  match reply.settlement with
  | .sent => none
  | .result outcome => some outcome
  | .cancelled => some (.error .cancelled)

/-- A reply as diagnostics show it. -/
def describe (reply : Reply) : String :=
  s!"PendingReply \x7b id: {reply.request}, status: {reply.status.name} \x7d"

end Reply

end MediaCatalog
