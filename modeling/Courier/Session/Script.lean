import Courier.Session.Collaborators

/-! # Scripted collaborators

Collaborators that answer a session from a list, whatever it asks, and log what
they are asked. They stand for any collaborator at all: a session sees nothing
of it but its answers.
-/

namespace Courier.Session.Script

/-- Answers that a call gives one after the other; nothing after the last one. -/
abbrev Answers (ε α : Type) := List (Except ε (Option α))

def next {ε α : Type} (answers : Answers ε α) : Except ε (Option α) :=
  answers.head?.getD (.ok none)

/-- What a source of records was asked. -/
inductive Call where
  | context (route : Route)
  | transportUpdate (contact : ContactId)
  | subscriptionUpdate (contact : ContactId)
  | ack (contact : ContactId) (limit : Nat)
  | batch (contact : ContactId) (limit : Nat)
  | restore (contact : ContactId) (records : List Record)
  deriving DecidableEq

/-- The answers of a source of records, and what it was asked so far. -/
structure SourceState where
  contexts : Answers MailboxFault Context := []
  transportUpdates : Answers MailboxFault TransportUpdate := []
  subscriptionUpdates : Answers MailboxFault SubscriptionUpdate := []
  acks : Answers MailboxFault Ack := []
  batches : Answers MailboxFault Batch := []
  /-- The answer to every restoring. -/
  restored : Except MailboxFault Unit := .ok ()
  log : List Call := []

def source : RecordSource SourceState where
  context route s :=
    (next s.contexts, { s with contexts := s.contexts.tail, log := s.log ++ [.context route] })
  transportUpdate contact s :=
    (next s.transportUpdates,
      { s with
        transportUpdates := s.transportUpdates.tail
        log := s.log ++ [.transportUpdate contact] })
  subscriptionUpdate contact s :=
    (next s.subscriptionUpdates,
      { s with
        subscriptionUpdates := s.subscriptionUpdates.tail
        log := s.log ++ [.subscriptionUpdate contact] })
  ack contact limit s :=
    (next s.acks, { s with acks := s.acks.tail, log := s.log ++ [.ack contact limit] })
  batch contact limit s :=
    (next s.batches, { s with batches := s.batches.tail, log := s.log ++ [.batch contact limit] })
  restore contact records s := (s.restored, { s with log := s.log ++ [.restore contact records] })

/-- The answers of a recogniser, and the tags that it was asked about. -/
structure RecogniserState where
  answers : Answers ConnectionFault Context
  tags : List Tag := []

def recogniser : Recogniser RecogniserState where
  recognise tag s := (next s.answers, { answers := s.answers.tail, tags := s.tags ++ [tag] })

/-- The records that a receiver was given, and the place of the one that it refuses. -/
structure ReceiverState where
  refusal : Option (Nat × MailboxFault) := none
  log : List (ContactId × Record) := []

def receiver : RecordReceiver ReceiverState where
  receive contact record s :=
    let result := match s.refusal with
      | some (place, fault) => if place = s.log.length then .error fault else .ok ()
      | none => .ok ()
    (result, { s with log := s.log ++ [(contact, record)] })

end Courier.Session.Script
