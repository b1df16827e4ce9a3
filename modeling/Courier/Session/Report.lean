import Courier.Session.Fault

/-! # Fault reports

A fault that leaves the program is reported as a kind and named parameters. The
kind goes from the outer layer to the inner one: a blank secret met while a
session wrote a frame is a transport fault, of the crypto layer, of that name.
-/

namespace Courier

/-- The names of the layers of a fault, outermost first. -/
abbrev FaultKind := List String

/-- The named parameters of a report. -/
structure FaultParameters where
  number : String → Nat
  text : String → String

/-- The text of a kind: its layers with dots between them. -/
def FaultKind.shown (kind : FaultKind) : String :=
  String.intercalate "." kind

/-- The kind that a text shows. -/
def FaultKind.ofString (text : String) : FaultKind :=
  text.splitOn "."

namespace FaultParameters

def contact (p : FaultParameters) : ContactId :=
  ⟨.ofNat (p.number "contact")⟩

def route (p : FaultParameters) : Route :=
  ⟨p.contact, ⟨.ofNat (p.number "transport")⟩⟩

end FaultParameters

namespace CryptoFault

def kind : CryptoFault → FaultKind
  | blankSecret => ["BlankSecret"]
  | invalidKeyLength _ _ => ["InvalidKeyLength"]
  | contextOutOfRange _ => ["ContextOutOfRange"]
  | malformedLabel => ["MalformedLabel"]
  | fieldTooLong _ _ => ["FieldTooLong"]
  | bufferTooShort _ _ => ["BufferTooShort"]
  | invalidPublicKey => ["InvalidPublicKey"]
  | invalidSignature => ["InvalidSignature"]
  | invalidIterationCount _ => ["InvalidIterationCount"]
  | authenticationFailed => ["AuthenticationFailed"]
  | encryptionFailed => ["EncryptionFailed"]

/-- The fault that a report tells. -/
def ofReport? (p : FaultParameters) : FaultKind → Option CryptoFault
  | ["BlankSecret"] => some .blankSecret
  | ["InvalidKeyLength"] => some (.invalidKeyLength (p.number "expected") (p.number "actual"))
  | ["ContextOutOfRange"] => some (.contextOutOfRange (p.number "value"))
  | ["MalformedLabel"] => some .malformedLabel
  | ["FieldTooLong"] => some (.fieldTooLong (p.text "field") (p.number "len"))
  | ["BufferTooShort"] => some (.bufferTooShort (p.number "expected") (p.number "actual"))
  | ["InvalidPublicKey"] => some .invalidPublicKey
  | ["InvalidSignature"] => some .invalidSignature
  | ["InvalidIterationCount"] => some (.invalidIterationCount (p.number "value"))
  | ["AuthenticationFailed"] => some .authenticationFailed
  | ["EncryptionFailed"] => some .encryptionFailed
  | _ => none

end CryptoFault

namespace ConnectionFault

def kind : ConnectionFault → FaultKind
  | crypto cause => "Crypto" :: cause.kind
  | device _ => ["Io"]
  | capacityExceeded _ _ => ["CapacityExceeded"]
  | payloadTooLarge _ _ => ["PayloadTooLarge"]
  | invalidFrameLength _ => ["InvalidFrameLength"]
  | truncated => ["Truncated"]
  | authenticationFailed => ["AuthenticationFailed"]
  | malformedHeader => ["MalformedHeader"]
  | alreadyFinished => ["AlreadyFinished"]
  | frameCounterExhausted => ["FrameCounterExhausted"]
  | faulted => ["Faulted"]

def ofReport? (p : FaultParameters) : FaultKind → Option ConnectionFault
  | "Crypto" :: cause => (CryptoFault.ofReport? p cause).map .crypto
  | ["Io"] => some (.device (p.text "text"))
  | ["CapacityExceeded"] =>
      some (.capacityExceeded (p.number "needed") (p.number "remaining"))
  | ["PayloadTooLarge"] => some (.payloadTooLarge (p.number "len") (p.number "max"))
  | ["InvalidFrameLength"] => some (.invalidFrameLength (p.number "value"))
  | ["Truncated"] => some .truncated
  | ["AuthenticationFailed"] => some .authenticationFailed
  | ["MalformedHeader"] => some .malformedHeader
  | ["AlreadyFinished"] => some .alreadyFinished
  | ["FrameCounterExhausted"] => some .frameCounterExhausted
  | ["Faulted"] => some .faulted
  | _ => none

end ConnectionFault

namespace RecordFault

def kind : RecordFault → FaultKind
  | encode _ => ["Encode"]
  | decode _ => ["Decode"]

def ofReport? (p : FaultParameters) : FaultKind → Option RecordFault
  | ["Encode"] => some (.encode (p.text "text"))
  | ["Decode"] => some (.decode (p.text "text"))
  | _ => none

end RecordFault

namespace MailboxFault

def kind : MailboxFault → FaultKind
  | unknownContact _ => ["UnknownContact"]
  | unknownTransport _ => ["UnknownTransport"]
  | streamsExhausted _ => ["StreamsExhausted"]
  | crypto cause => "Crypto" :: cause.kind
  | record cause => "Record" :: cause.kind

def ofReport? (p : FaultParameters) : FaultKind → Option MailboxFault
  | ["UnknownContact"] => some (.unknownContact p.contact)
  | ["UnknownTransport"] => some (.unknownTransport p.route)
  | ["StreamsExhausted"] => some (.streamsExhausted p.contact)
  | "Crypto" :: cause => (CryptoFault.ofReport? p cause).map .crypto
  | "Record" :: cause => (RecordFault.ofReport? p cause).map .record
  | _ => none

end MailboxFault

namespace SessionFault

def kind : SessionFault → FaultKind
  | mailbox cause => "Storage" :: cause.kind
  | connection cause => "Transport" :: cause.kind
  | record cause => "Record" :: cause.kind
  | alreadyUsed => ["AlreadyUsed"]

def ofReport? (p : FaultParameters) : FaultKind → Option SessionFault
  | "Storage" :: cause => (MailboxFault.ofReport? p cause).map .mailbox
  | "Transport" :: cause => (ConnectionFault.ofReport? p cause).map .connection
  | "Record" :: cause => (RecordFault.ofReport? p cause).map .record
  | ["AlreadyUsed"] => some .alreadyUsed
  | _ => none

end SessionFault

end Courier
