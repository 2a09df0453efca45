/-!
Settings of a client session.
-/

namespace MediaCatalog

structure ClientSettings where
  name : String := "medialib-client"
  /-- How many messages may wait for the server's reader. -/
  capacity : Nat := 256
  /-- Encode and decode all that passes between client and server. -/
  wire : Bool := true
  deriving DecidableEq, Repr

namespace ClientSettings

def named (name : String) : ClientSettings := { name }

/-- Set the capacity, which is at least 1. -/
def withCapacity (settings : ClientSettings) (capacity : Nat) : ClientSettings :=
  { settings with capacity := max capacity 1 }

/-- Pass values on without encoding them. -/
def withoutWire (settings : ClientSettings) : ClientSettings := { settings with wire := false }

end ClientSettings

end MediaCatalog
