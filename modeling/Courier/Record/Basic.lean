import Courier.Bytes
import Courier.Table

/-! # Records

What a connection carries: the transports the sender can be reached on, the
groups the sender subscribes to, acknowledgements of batches, and batches of
messages. Messages are opaque bytes here. Updates have versions, and only a
newer one replaces what the receiver holds.
-/

namespace Courier

def identifierLength : Nat := 32

/-- A name of 32 bytes. -/
structure Identifier where
  bytes : Bytes
  length_eq : bytes.length = identifierLength
  deriving DecidableEq

/-- Names a batch: a digest of its record. -/
abbrev BatchId := Identifier

/-- Names a group. -/
abbrev GroupId := Identifier

namespace Identifier

def ofBytes? (bytes : Bytes) : Option Identifier :=
  if h : bytes.length = identifierLength then some ⟨bytes, h⟩ else none

/-- The short text of an identifier of some kind: its first four bytes. -/
def shown (kind : String) (id : Identifier) : String :=
  s!"{kind}({hexText (id.bytes.take 4)}..)"

end Identifier

/-- The properties of each transport that the sender can be reached on. -/
structure TransportUpdate where
  transports : Table String (Table String String)
  version : UInt64
  deriving DecidableEq

/-- The groups that the sender wants messages of. -/
structure SubscriptionUpdate where
  groups : List GroupId
  version : UInt64
  deriving DecidableEq

/-- The batches that the sender received. -/
structure Ack where
  batchIds : List BatchId
  deriving DecidableEq

structure Batch where
  messages : List Bytes
  deriving DecidableEq

inductive Record where
  | transportUpdate (update : TransportUpdate)
  | subscriptionUpdate (update : SubscriptionUpdate)
  | ack (ack : Ack)
  | batch (batch : Batch)
  deriving DecidableEq

def Record.kind : Record → String
  | transportUpdate _ => "transport_update"
  | subscriptionUpdate _ => "subscription_update"
  | ack _ => "ack"
  | batch _ => "batch"

/-- A record that cannot be written, or bytes that are no record, with the reason. -/
inductive RecordFault where
  | encode (reason : String)
  | decode (reason : String)
  deriving DecidableEq, Repr

def RecordFault.message : RecordFault → String
  | encode reason => s!"record encoding failed: {reason}"
  | decode reason => s!"record decoding failed: {reason}"

end Courier
