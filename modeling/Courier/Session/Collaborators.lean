import Courier.Connection.Stream
import Courier.Record.Basic
import Courier.Session.Fault
import Courier.Tag

/-! # What a session works with

A session knows its collaborators only through the operations below: a source
of records to send, a receiver of records that arrived, someone who recognises
tags, and the two ends of a connection. Each is a state machine of its own. An
operation that fails may still have changed the state.
-/

namespace Courier

/-- Hands out the records to send to a contact. A record counts as sent unless it is given back. -/
structure RecordSource (σ : Type) where
  /-- What keys the next connection on a route; nothing without keys for the route. -/
  context : Route → σ → Except MailboxFault (Option Context) × σ
  transportUpdate : ContactId → σ → Except MailboxFault (Option TransportUpdate) × σ
  subscriptionUpdate : ContactId → σ → Except MailboxFault (Option SubscriptionUpdate) × σ
  /-- Acknowledgements owed, in a record of at most so many bytes. -/
  ack : ContactId → (limit : Nat) → σ → Except MailboxFault (Option Ack) × σ
  /-- Messages, in a record of at most so many bytes. -/
  batch : ContactId → (limit : Nat) → σ → Except MailboxFault (Option Batch) × σ
  /-- Take back records that never reached the contact. -/
  restore : ContactId → List Record → σ → Except MailboxFault Unit × σ

/-- Takes the records that arrived from a contact. -/
structure RecordReceiver (σ : Type) where
  receive : ContactId → Record → σ → Except MailboxFault Unit × σ

/-- Tells which connection a tag opens. -/
structure Recogniser (κ : Type) where
  recognise : Tag → κ → Except ConnectionFault (Option Context) × κ

/-- The end of a connection that is written to. -/
structure WritingEnd (δ : Type) where
  capacity : Nat
  maxFrameLength : Nat
  sink : Sink δ
  /-- Release the connection; after an exception its bytes must not be delivered. -/
  dispose : (exception : Bool) → δ → Except ConnectionFault Unit × δ

/-- The end of a connection that is read from. -/
structure ReadingEnd (ρ : Type) where
  maxFrameLength : Nat
  source : Source ρ
  /-- Release the connection, telling whether reading it failed and whether its tag was
      recognised. -/
  dispose : (exception recognised : Bool) → ρ → Except ConnectionFault Unit × ρ

end Courier
