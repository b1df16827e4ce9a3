import Courier.Secret.Fault

/-! # Faults of a connection

What a device can report, and what can go wrong while a connection is written
or read. A few of these faults can only be caused by the bytes that arrived;
`isCorruption` names them.
-/

namespace Courier

/-- The kinds of device faults that anything depends on, and a few names for the rest. -/
inductive DeviceFault.Kind where
  /-- The source ended inside a piece that was asked for whole. -/
  | unexpectedEnd
  /-- The sink took nothing of a piece. -/
  | writeZero
  | brokenPipe
  | notFound
  | alreadyExists
  | notADirectory
  | other
  deriving DecidableEq, Repr

/-- A fault reported by a byte sink, a byte source or a directory. -/
structure DeviceFault where
  kind : DeviceFault.Kind
  text : String
  deriving DecidableEq, Repr

inductive ConnectionFault where
  | crypto (cause : CryptoFault)
  | device (text : String)
  /-- A frame costs more than is left of the capacity. -/
  | capacityExceeded (needed remaining : Nat)
  | payloadTooLarge (length limit : Nat)
  /-- The frame limit leaves no room for a payload. -/
  | invalidFrameLength (length : Nat)
  /-- The bytes ended before the final frame. -/
  | truncated
  /-- A header or payload does not carry the right code. -/
  | authenticationFailed
  /-- A genuine header with unknown flags or an impossible length. -/
  | malformedHeader
  | alreadyFinished
  | frameCounterExhausted
  /-- An earlier operation failed for good. -/
  | faulted
  deriving DecidableEq, Repr

namespace ConnectionFault

def message : ConnectionFault → String
  | crypto cause => s!"crypto error: {cause.message}"
  | device text => s!"transport I/O error: {text}"
  | capacityExceeded needed remaining =>
      s!"capacity exceeded: frame needs {needed} bytes, {remaining} remain"
  | payloadTooLarge length limit => s!"payload of {length} bytes exceeds frame limit of {limit}"
  | invalidFrameLength length => s!"frame length {length} is smaller than the frame overhead"
  | truncated => "connection truncated"
  | authenticationFailed => "frame authentication failed"
  | malformedHeader => "malformed frame header"
  | alreadyFinished => "connection already finished"
  | frameCounterExhausted => "frame counter exhausted"
  | faulted => "connection faulted"

/-- Whether the bytes that arrived cannot belong to a genuine connection. -/
def isCorruption : ConnectionFault → Bool
  | authenticationFailed | malformedHeader | truncated => true
  | _ => false

/-- A source that ends early truncates the connection; other device faults are passed on. -/
def ofDevice (fault : DeviceFault) : ConnectionFault :=
  match fault.kind with
  | .unexpectedEnd => truncated
  | _ => device fault.text

end ConnectionFault

end Courier
