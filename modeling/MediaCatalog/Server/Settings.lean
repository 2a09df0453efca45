/-!
Settings of a collection service.
-/

namespace MediaCatalog

structure ServiceSettings where
  /-- The seed of random order and choice. -/
  seed : Option UInt64 := none
  /-- Refuse fetch specs with keys that their type does not use. -/
  strict : Bool := true
  /-- The name that the service's objects start with. -/
  name : String := "medialib"
  deriving DecidableEq, Repr

namespace ServiceSettings

def withSeed (settings : ServiceSettings) (seed : UInt64) : ServiceSettings :=
  { settings with seed := some seed }

/-- Ignore keys of fetch specs that their type does not use. -/
def lenient (settings : ServiceSettings) : ServiceSettings := { settings with strict := false }

def withName (settings : ServiceSettings) (name : String) : ServiceSettings :=
  { settings with name }

end ServiceSettings

end MediaCatalog
