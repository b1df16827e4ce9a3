import Courier.Connection.Roster
import Courier.Mailbox.Conversation
import Courier.Session.Collaborators

/-! # Mailboxes

A mailbox holds a conversation for every contact and the updates that are
published to all of them. It is the source and the receiver of the records of
a session.
-/

namespace Courier

structure Mailbox where
  conversations : Table ContactId Conversation := .empty
  /-- The transports published to every contact. -/
  transports : Option TransportUpdate := none
  /-- The subscriptions published to every contact. -/
  subscriptions : Option SubscriptionUpdate := none

namespace Mailbox

def conversation? (m : Mailbox) (contact : ContactId) : Option Conversation :=
  m.conversations.find? contact

def setConversation (m : Mailbox) (contact : ContactId) (c : Conversation) : Mailbox :=
  { m with conversations := m.conversations.insert contact c }

def update {α : Type} (m : Mailbox) (contact : ContactId) (step : Conversation → α × Conversation) :
    Except MailboxFault α × Mailbox :=
  match m.conversation? contact with
  | none => (.error (.unknownContact contact), m)
  | some c =>
      let (result, c) := step c
      (.ok result, m.setConversation contact c)

def ask {α : Type} (m : Mailbox) (contact : ContactId) (question : Conversation → α) :
    Except MailboxFault α :=
  match m.conversation? contact with
  | none => .error (.unknownContact contact)
  | some c => .ok (question c)

/-! ## Contacts -/

/-- Start a conversation, in place of any earlier one with this contact. -/
def addContact (m : Mailbox) (contact : ContactId) (root : Secret) (role : Role)
    (transports : List TransportIndex) : Except MailboxFault Unit × Mailbox :=
  match Conversation.start root role transports with
  | .ok c => (.ok (), m.setConversation contact c)
  | .error fault => (.error (.crypto fault), m)

/-- Forget a contact and everything queued for it. -/
def removeContact (m : Mailbox) (contact : ContactId) : Mailbox :=
  { m with conversations := m.conversations.erase contact }

/-- Move a conversation to its next period; the answer is the period. -/
def rotate (m : Mailbox) (contact : ContactId) : Except MailboxFault Nat × Mailbox :=
  match m.update contact Conversation.rotate with
  | (.ok (.ok period), m) => (.ok period, m)
  | (.ok (.error fault), m) => (.error (.crypto fault), m)
  | (.error fault, m) => (.error fault, m)

def period (m : Mailbox) (contact : ContactId) : Except MailboxFault Nat :=
  m.ask contact (·.period)

def nextStream (m : Mailbox) (route : Route) : Except MailboxFault Nat := do
  match ← m.ask route.contact (·.lanes.find? route.transport) with
  | some lane => return lane.next
  | none => throw (.unknownTransport route)

/-- Every route, with its lane and the local side. -/
def routes (m : Mailbox) : List (Route × Lane × Role) :=
  m.conversations.entries.flatMap fun (contact, c) =>
    c.lanes.entries.map fun (transport, lane) => (⟨contact, transport⟩, lane, c.role)

/-- Expect the connections of the current period on these routes. -/
def expectRoutes : List (Route × Lane × Role) → Roster → Except SessionFault Unit × Roster
  | [], roster => (.ok (), roster)
  | (route, lane, role) :: rest, roster =>
      match roster.expect route lane.secret role 0 with
      | .ok roster => expectRoutes rest roster
      | .error fault => (.error (.connection fault), roster)

/-- Expect the connections of the current period of every contact, from stream number zero on. -/
def expectIncoming (m : Mailbox) (roster : Roster) : Except SessionFault Unit × Roster :=
  expectRoutes m.routes roster

/-! ## What to send -/

def queue (m : Mailbox) (contact : ContactId) (message : Bytes) :
    Except MailboxFault Unit × Mailbox :=
  m.update contact fun c => ((), { c with queued := c.queued ++ [message] })

/-- Publish transports to every contact. -/
def publishTransports (m : Mailbox) (update : TransportUpdate) : Mailbox :=
  { m with transports := some update }

/-- Publish subscriptions to every contact. -/
def publishSubscriptions (m : Mailbox) (update : SubscriptionUpdate) : Mailbox :=
  { m with subscriptions := some update }

/-- Queue the messages of outstanding batches again; the answer is their number. -/
def requeue (m : Mailbox) (contact : ContactId) : Except MailboxFault Nat × Mailbox :=
  m.update contact fun c => (c.unacknowledged, c.requeue)

/-- What keys the next connection on a route. Its stream number is used up. -/
def context (route : Route) (m : Mailbox) : Except MailboxFault (Option Context) × Mailbox :=
  match m.conversation? route.contact with
  | none => (.ok none, m)
  | some c =>
      match c.lanes.find? route.transport with
      | none => (.ok none, m)
      | some lane =>
          if maxContext < lane.next then
            (.error (.streamsExhausted route.contact), m)
          else
            let lanes := c.lanes.insert route.transport { lane with next := lane.next + 1 }
            (.ok (some { route, secret := lane.secret, stream := lane.next, role := c.role }),
              m.setConversation route.contact { c with lanes })

/-- The published transports, if they are due. -/
def takeTransportUpdate (contact : ContactId) (m : Mailbox) :
    Except MailboxFault (Option TransportUpdate) × Mailbox :=
  match m.transports with
  | none => (.ok none, m)
  | some update => m.update contact (·.takeTransportUpdate update)

/-- The published subscriptions, if they are due. -/
def takeSubscriptionUpdate (contact : ContactId) (m : Mailbox) :
    Except MailboxFault (Option SubscriptionUpdate) × Mailbox :=
  match m.subscriptions with
  | none => (.ok none, m)
  | some update => m.update contact (·.takeSubscriptionUpdate update)

/-- Owed acknowledgements in a record of at most `limit` bytes. -/
def takeAck (contact : ContactId) (limit : Nat) (m : Mailbox) :
    Except MailboxFault (Option Ack) × Mailbox :=
  m.update contact (·.takeAck limit)

/-- Queued messages in a record of at most `limit` bytes. -/
def takeBatch (contact : ContactId) (limit : Nat) (m : Mailbox) :
    Except MailboxFault (Option Batch) × Mailbox :=
  m.update contact (·.takeBatch limit)

/-- Take back records that never reached the contact. -/
def restore (contact : ContactId) (records : List Record) (m : Mailbox) :
    Except MailboxFault Unit × Mailbox :=
  m.update contact fun c => ((), c.restoreAll records)

def source : RecordSource Mailbox where
  context := context
  transportUpdate := takeTransportUpdate
  subscriptionUpdate := takeSubscriptionUpdate
  ack := takeAck
  batch := takeBatch
  restore := restore

/-! ## What arrived -/

/-- Take a record that arrived from a contact. -/
def receive (contact : ContactId) (record : Record) (m : Mailbox) :
    Except MailboxFault Unit × Mailbox :=
  m.update contact fun c => ((), c.receive record)

def receiver : RecordReceiver Mailbox where
  receive := receive

/-- Messages that arrived from a contact, in order; none from an unknown contact. -/
def received (m : Mailbox) (contact : ContactId) : List Bytes :=
  (m.conversation? contact).elim [] (·.received)

def queuedCount (m : Mailbox) (contact : ContactId) : Nat :=
  (m.conversation? contact).elim 0 (·.queued.length)

/-- Number of batches that a contact has not acknowledged. -/
def outstandingCount (m : Mailbox) (contact : ContactId) : Nat :=
  (m.conversation? contact).elim 0 (·.outstanding.length)

/-- Number of batches of a contact whose acknowledgement is to be sent. -/
def owedCount (m : Mailbox) (contact : ContactId) : Nat :=
  (m.conversation? contact).elim 0 (·.acksOwed.length)

/-- The latest transports that a contact told. -/
def remoteTransports (m : Mailbox) (contact : ContactId) : Option TransportUpdate :=
  (m.conversation? contact).bind (·.remoteTransports)

/-- The latest subscriptions that a contact told. -/
def remoteSubscriptions (m : Mailbox) (contact : ContactId) : Option SubscriptionUpdate :=
  (m.conversation? contact).bind (·.remoteSubscriptions)

end Mailbox

def Roster.recogniser : Recogniser Roster where
  recognise tag roster :=
    let (context, roster) := roster.recognise tag
    (.ok context, roster)

end Courier
