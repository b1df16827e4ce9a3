import Courier.Connection.Context
import Courier.Record.Encode
import Courier.Secret.Derivation
import Courier.Session.Fault

/-! # The state of one contact

For each contact a mailbox holds the secrets of the current period, what is to
be sent, what was sent and is not acknowledged, what is to be acknowledged, and
what arrived. A message is queued, then in an outstanding batch, then gone once
the batch is acknowledged; restoring and requeueing move it back to the front
of the queue in its old order.
-/

namespace Courier

/-- One transport of a contact in the current period. -/
structure Lane where
  secret : Secret
  /-- Stream number of the next outgoing connection. -/
  next : Nat := 0
  deriving DecidableEq

structure Conversation where
  role : Role
  period : Nat := 0
  lanes : Table TransportIndex Lane
  queued : List Bytes := []
  /-- Batches sent and not acknowledged, oldest first. -/
  outstanding : List (BatchId × Batch) := []
  /-- Batches received whose acknowledgement is to be sent. -/
  acksOwed : List BatchId := []
  /-- Version of the transport update last sent. -/
  transportsSent : Option UInt64 := none
  /-- Version of the subscription update last sent. -/
  subscriptionsSent : Option UInt64 := none
  received : List Bytes := []
  seen : List BatchId := []
  remoteTransports : Option TransportUpdate := none
  remoteSubscriptions : Option SubscriptionUpdate := none

namespace Conversation

/-- A conversation with the owner of the other side of `root`, reachable over `transports`. -/
def start (root : Secret) (role : Role) (transports : List TransportIndex) :
    Except CryptoFault Conversation := do
  let lanes ← transports.mapM fun transport => do
    let secret ← root.derive (.transportSecret transport.number)
    return (transport, { secret : Lane })
  return { role, lanes := .ofList lanes }

/-- Move the given lanes into a period, one after the other. -/
def rotateLanes (period : Nat) :
    List (TransportIndex × Lane) → Table TransportIndex Lane →
      Except CryptoFault Unit × Table TransportIndex Lane
  | [], lanes => (.ok (), lanes)
  | (transport, lane) :: rest, lanes =>
      match lane.secret.derive (.periodSecret period) with
      | .ok secret => rotateLanes period rest (lanes.insert transport { secret })
      | .error fault => (.error fault, lanes)

/-- Move to the next period. The secrets of the last one are gone, and streams count from zero. -/
def rotate (c : Conversation) : Except CryptoFault Nat × Conversation :=
  match rotateLanes (c.period + 1) c.lanes.entries c.lanes with
  | (.ok (), lanes) => (.ok (c.period + 1), { c with lanes, period := c.period + 1 })
  | (.error fault, lanes) => (.error fault, { c with lanes })

/-! ## Sending -/

def isNewer (version : UInt64) (before : Option UInt64) : Bool :=
  match before with
  | some before => before < version
  | none => true

/-- Mark a transport update as sent, if it is due. -/
def takeTransportUpdate (update : TransportUpdate) (c : Conversation) :
    Option TransportUpdate × Conversation :=
  if isNewer update.version c.transportsSent then
    (some update, { c with transportsSent := some update.version })
  else
    (none, c)

/-- Mark a subscription update as sent, if it is due. -/
def takeSubscriptionUpdate (update : SubscriptionUpdate) (c : Conversation) :
    Option SubscriptionUpdate × Conversation :=
  if isNewer update.version c.subscriptionsSent then
    (some update, { c with subscriptionsSent := some update.version })
  else
    (none, c)

/-- The owed acknowledgements at the front that fit in a record of `limit` bytes. -/
def takeAck (limit : Nat) (c : Conversation) : Option Ack × Conversation :=
  let batchIds := fitting limit (fun _ => Ack.idLength) 0 Ack.baseLength c.acksOwed
  if batchIds.isEmpty then
    (none, c)
  else
    (some { batchIds }, { c with acksOwed := c.acksOwed.drop batchIds.length })

/-- The queued messages at the front that fit in a record of `limit` bytes. Their batch becomes
    outstanding. -/
def takeBatch (limit : Nat) (c : Conversation) : Option Batch × Conversation :=
  let messages :=
    fitting limit Batch.messageLength 0 Batch.baseLength (Batch.within limit 0 c.queued)
  if messages.isEmpty then
    (none, c)
  else
    let batch : Batch := { messages }
    (some batch,
      { c with
        queued := c.queued.drop messages.length
        outstanding := c.outstanding ++ [(batch.id, batch)] })

/-- All queued messages might as well be tried. -/
theorem takeBatch_eq (limit : Nat) (c : Conversation) :
    c.takeBatch limit =
      let messages := fitting limit Batch.messageLength 0 Batch.baseLength c.queued
      if messages.isEmpty then
        (none, c)
      else
        (some { messages },
          { c with
            queued := c.queued.drop messages.length
            outstanding := c.outstanding ++ [(Batch.id { messages }, { messages })] }) := by
  simp only [takeBatch, Batch.fitting_within limit 0 (Nat.zero_le _)]

/-- The list without the last pair named `id`. -/
def withoutLast (id : BatchId) (batches : List (BatchId × Batch)) : List (BatchId × Batch) :=
  (batches.reverse.eraseP (·.1 = id)).reverse

/-- Put the identifiers that are not owed yet in front, in their order. -/
def oweFirst (ids : List BatchId) (owed : List BatchId) : List BatchId :=
  ids.foldr (fun id owed => if owed.contains id then owed else id :: owed) owed

/-- Take back a record that never reached the contact. -/
def restore (record : Record) (c : Conversation) : Conversation :=
  match record with
  | .transportUpdate update =>
      if c.transportsSent = some update.version then { c with transportsSent := none } else c
  | .subscriptionUpdate update =>
      if c.subscriptionsSent = some update.version then { c with subscriptionsSent := none } else c
  | .ack ack => { c with acksOwed := oweFirst ack.batchIds c.acksOwed }
  | .batch batch =>
      { c with
        outstanding := withoutLast batch.id c.outstanding
        queued := batch.messages ++ c.queued }

/-- Take back records, the latest first, so that what goes to the front keeps its order. -/
def restoreAll (records : List Record) (c : Conversation) : Conversation :=
  records.foldr restore c

/-- Put the messages of all outstanding batches back in front of the queue. -/
def requeue (c : Conversation) : Conversation :=
  { c with
    queued := c.outstanding.flatMap (·.2.messages) ++ c.queued
    outstanding := [] }

/-- Messages that `requeue` puts back. -/
def unacknowledged (c : Conversation) : Nat :=
  (c.outstanding.flatMap (·.2.messages)).length

/-! ## Receiving -/

/-- Take a record that arrived. An update counts only if it is newer than the one held. A batch that
    arrives again is acknowledged again, but its messages are not taken again. -/
def receive (record : Record) (c : Conversation) : Conversation :=
  match record with
  | .transportUpdate update =>
      if isNewer update.version (c.remoteTransports.map (·.version)) then
        { c with remoteTransports := some update }
      else
        c
  | .subscriptionUpdate update =>
      if isNewer update.version (c.remoteSubscriptions.map (·.version)) then
        { c with remoteSubscriptions := some update }
      else
        c
  | .ack ack =>
      { c with outstanding := c.outstanding.filter fun batch => !ack.batchIds.contains batch.1 }
  | .batch batch =>
      let id := batch.id
      let c :=
        if c.seen.contains id then c
        else { c with seen := id :: c.seen, received := c.received ++ batch.messages }
      if c.acksOwed.contains id then c else { c with acksOwed := c.acksOwed ++ [id] }

end Conversation

end Courier
