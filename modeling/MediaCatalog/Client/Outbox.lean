import MediaCatalog.Client.Session

/-!
An outbox: a channel that keeps what is sent over it, so that somebody else can
act as the server. It can be told to refuse one message.
-/

namespace MediaCatalog

structure Outbox where
  connected : Bool := true
  /-- The messages sent, the oldest first. -/
  sent : List Message := []
  /-- The error that the next message is refused with. -/
  refusal : Option Error := none

namespace Outbox

instance : Channel Outbox where
  isConnected outbox := outbox.connected
  send outbox message :=
    match outbox.refusal with
    | some error => (.error error, { outbox with refusal := none })
    | none => (.ok (), { outbox with sent := outbox.sent ++ [message] })

end Outbox

end MediaCatalog
