/-!
Causes of failure. A wire error says what is wrong with a byte sequence; an
error says why a request could not be answered. The wording of each cause
stands in one place, `message`, and nowhere else.
-/

namespace MediaCatalog

/-- What can be wrong with encoded bytes. -/
inductive WireError where
  | unexpectedEnd
  | unknownMarker (marker : UInt8)
  | invalidUtf8
  | invalidReference (index : UInt32)
  | unknownCollectionKind (kind : UInt8)
  | expectedCollection
  | nestingTooDeep
  | unknownObject (object : UInt32)
  | malformedMessage
  deriving DecidableEq, Repr, Inhabited

/-- The two lower-case hexadecimal digits of a byte. -/
def hexByte (byte : UInt8) : String :=
  String.ofList [Nat.digitChar (byte.toNat / 16), Nat.digitChar (byte.toNat % 16)]

def WireError.message : WireError → String
  | .unexpectedEnd => "Unexpected end of input"
  | .unknownMarker marker => "Unknown type marker: 0x" ++ hexByte marker
  | .invalidUtf8 => "Invalid UTF-8 in string"
  | .invalidReference index => "Invalid collection reference: " ++ toString index.toNat
  | .unknownCollectionKind kind => "Unknown collection kind: " ++ toString kind.toNat
  | .expectedCollection => "Expected a collection operand"
  | .nestingTooDeep => "Nesting too deep"
  | .unknownObject object => "Unknown object id: " ++ toString object.toNat
  | .malformedMessage => "Malformed message"

/-- Why a request failed. Local causes are found before anything is sent;
`remote` carries a message of the peer unchanged. -/
inductive Error where
  | invalidArgument (reason : String)
  | notConnected
  | notFound (what : String)
  | remote (reason : String)
  | cancelled
  | queueFull
  | wire (cause : WireError)
  deriving DecidableEq, Repr, Inhabited

namespace Error

def message : Error → String
  | invalidArgument reason => "Invalid argument: " ++ reason
  | notConnected => "Not connected"
  | notFound what => "Not found: " ++ what
  | remote reason => "Remote error: " ++ reason
  | cancelled => "Cancelled"
  | queueFull => "Send queue full"
  | wire cause => "Codec error: " ++ cause.message

/-- The wire error underneath, if that is the cause. -/
def wireCause? : Error → Option WireError
  | wire cause => some cause
  | _ => none

end Error

/-- Whatever succeeds in two steps succeeds in the first one. -/
theorem exists_of_bind_ok {ε α β : Type} {first : Except ε α} {next : α → Except ε β} {result : β}
    (success : (first >>= next) = .ok result) :
    ∃ value, first = .ok value ∧ next value = .ok result := by
  cases first with
  | error cause => exact nomatch success
  | ok value => exact ⟨value, rfl, success⟩

end MediaCatalog
