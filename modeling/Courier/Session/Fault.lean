import Courier.Connection.Context
import Courier.Connection.Fault
import Courier.Record.Basic

/-! # Faults of a session

A session moves records between a mailbox and a connection, so it fails where
one of them fails, where a frame holds no record, or when it is run again.
-/

namespace Courier

inductive MailboxFault where
  | unknownContact (contact : ContactId)
  /-- The contact cannot be reached over this transport. -/
  | unknownTransport (route : Route)
  /-- The stream numbers of the current period are used up. -/
  | streamsExhausted (contact : ContactId)
  | crypto (cause : CryptoFault)
  | record (cause : RecordFault)
  deriving DecidableEq, Repr

def MailboxFault.message : MailboxFault → String
  | unknownContact contact => s!"unknown contact: {contact.name}"
  | unknownTransport route =>
      s!"{route.contact.name} has no transport {route.transport.number.toNat}"
  | streamsExhausted contact => s!"stream numbers exhausted for {contact.name}"
  | crypto cause => s!"crypto error: {cause.message}"
  | record cause => s!"record error: {cause.message}"

inductive SessionFault where
  | mailbox (cause : MailboxFault)
  | connection (cause : ConnectionFault)
  | record (cause : RecordFault)
  /-- A session runs once. -/
  | alreadyUsed
  deriving DecidableEq, Repr

namespace SessionFault

def message : SessionFault → String
  | mailbox cause => s!"storage error: {cause.message}"
  | connection cause => s!"transport error: {cause.message}"
  | record cause => s!"record error: {cause.message}"
  | alreadyUsed => "connection already used"

/-- Whether the peer sent bytes that cannot be a genuine connection. -/
def isCorruption : SessionFault → Bool
  | connection cause => cause.isCorruption
  | record (.decode _) => true
  | _ => false

end SessionFault

end Courier
