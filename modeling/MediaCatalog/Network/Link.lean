import MediaCatalog.Client.Session

/-!
Links to a service in the same process. Messages wait in a queue of bounded length
until the reader of the link takes them, in the order of sending. With `wire` set
they wait in encoded form.
-/

namespace MediaCatalog

/-- A message on its way. -/
inductive Frame where
  | plain (message : Message)
  | encoded (bytes : List UInt8)

structure Link where
  settings : ClientSettings
  connected : Bool := true
  /-- Waiting messages, the oldest first. -/
  queue : List Frame := []
  /-- Messages accepted so far. -/
  sent : Nat := 0
  /-- Signals of the service that are forwarded to the client. -/
  forwarded : List UInt32 := []

namespace Link

/-- The form in which a message waits. -/
def frame (link : Link) (message : Message) : Frame :=
  if link.settings.wire then .encoded message.encode else .plain message

instance : Channel Link where
  isConnected link := link.connected
  send link message :=
    if !link.connected then (.error .notConnected, link)
    else if max link.settings.capacity 1 ≤ link.queue.length then
      (.error .queueFull, link)
    else
      (.ok (),
        { link with
          queue := link.queue ++ [link.frame message]
          sent := link.sent + 1 })

end Link

end MediaCatalog
