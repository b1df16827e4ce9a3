import Courier.Connection.FrameWriter
import Courier.Record.Encode
import Courier.Session.Collaborators

/-! # Sending a connection

A connection is filled with the records that are due, each in a frame of its
own: a transport update, a subscription update, acknowledgements, and batches,
in this order, so that a small connection still carries what matters most. The
first record that does not fit goes back and ends the filling. If writing
fails, every record that was taken goes back in one piece, because a connection
that failed is never delivered. The writing end is released in any case.
-/

namespace Courier.Session

inductive AbortReason where
  /-- There are no keys for the route. -/
  | noContext
  /-- The connection cannot carry a tag and two frames. -/
  | insufficientCapacity
  deriving DecidableEq, Repr

inductive SendOutcome where
  /-- The connection was written, tag included, with one record in each frame but the last. -/
  | completed (bytes records : Nat)
  | aborted (reason : AbortReason)
  deriving DecidableEq, Repr

def SendOutcome.isCompleted : SendOutcome → Bool
  | completed _ _ => true
  | aborted _ => false

inductive SendPhase where
  | start
  | disposed (exception : Bool)
  deriving DecidableEq, Repr

/-- How far the filling of a connection has come. -/
structure Filling (σ δ : Type) where
  mailbox : σ
  frames : FrameWriter δ
  /-- Records written, or at least begun, in order. -/
  taken : List Record := []

namespace Filling

variable {σ δ : Type}

/-- One step of the filling. It tells whether the filling goes on. -/
abbrev Step (σ δ : Type) := Filling σ δ → Except SessionFault Bool × Filling σ δ

/-- Go on with `next` unless the filling has ended. -/
def Step.andThen (first next : Step σ δ) : Step σ δ := fun f =>
  match first f with
  | (.ok true, f) => next f
  | stopped => stopped

variable (source : RecordSource σ) (sink : Sink δ) (contact : ContactId)

/-- Write a record as one frame, or give it back if it does not fit, which ends the filling. -/
def writeRecord (record : Record) : Step σ δ := fun f =>
  let payload := record.encode
  if f.frames.payloadBudget < payload.length then
    match source.restore contact [record] f.mailbox with
    | (.ok (), mailbox) => (.ok false, { f with mailbox })
    | (.error fault, mailbox) => (.error (.mailbox fault), { f with mailbox })
  else
    match f.frames.write sink payload false with
    | (.ok (), frames) => (.ok true, { f with frames, taken := f.taken ++ [record] })
    | (.error fault, frames) =>
        (.error (.connection fault), { f with frames, taken := f.taken ++ [record] })

/-- Write the update that is due, if there is one. -/
def writeUpdate {α : Type} (toRecord : α → Record)
    (generate : ContactId → σ → Except MailboxFault (Option α) × σ) : Step σ δ := fun f =>
  match generate contact f.mailbox with
  | (.error fault, mailbox) => (.error (.mailbox fault), { f with mailbox })
  | (.ok none, mailbox) => (.ok true, { f with mailbox })
  | (.ok (some update), mailbox) =>
      writeRecord source sink contact (toRecord update) { f with mailbox }

theorem writeRecord_remaining_lt {record : Record} {f f' : Filling σ δ}
    (h : writeRecord source sink contact record f = (.ok true, f')) :
    f'.frames.remaining < f.frames.remaining := by
  unfold writeRecord at h
  dsimp only at h
  split at h
  · split at h <;> simp at h
  · split at h
    next written =>
      simp only [Prod.mk.injEq, true_and] at h
      exact h ▸ FrameWriter.write_remaining_lt written
    · simp at h

/-- Write records of one kind until none is left or there is no room for another. -/
def writeWhileDue {α : Type} (toRecord : α → Record)
    (generate : ContactId → Nat → σ → Except MailboxFault (Option α) × σ) (f : Filling σ δ) :
    Except SessionFault Bool × Filling σ δ :=
  if f.frames.payloadBudget = 0 then
    (.ok false, f)
  else
    match generate contact f.frames.payloadBudget f.mailbox with
    | (.error fault, mailbox) => (.error (.mailbox fault), { f with mailbox })
    | (.ok none, mailbox) => (.ok true, { f with mailbox })
    | (.ok (some part), mailbox) =>
        match _h : writeRecord source sink contact (toRecord part) { f with mailbox } with
        | (.ok true, f) => writeWhileDue toRecord generate f
        | stopped => stopped
  termination_by f.frames.remaining
  decreasing_by exact (writeRecord_remaining_lt source sink contact _h :)

/-- Write all that is due, most urgent first. -/
def writeRecords : Step σ δ :=
  Step.andThen (writeUpdate source sink contact .transportUpdate source.transportUpdate) <|
  Step.andThen (writeUpdate source sink contact .subscriptionUpdate source.subscriptionUpdate) <|
  Step.andThen (writeWhileDue source sink contact .ack source.ack) <|
  writeWhileDue source sink contact .batch source.batch

/-- Write all that is due and close the connection. -/
def run (f : Filling σ δ) : Except SessionFault Unit × Filling σ δ :=
  match writeRecords source sink contact f with
  | (.error fault, f) => (.error fault, f)
  | (.ok _, f) =>
      match f.frames.finish sink with
      | (.ok (), frames) => (.ok (), { f with frames })
      | (.error fault, frames) => (.error (.connection fault), { f with frames })

/-- The mailbox after a failed connection: it has got back all that was taken. That it may refuse
    changes nothing for the session. -/
def givenBack (f : Filling σ δ) : σ :=
  if f.taken.isEmpty then f.mailbox else (source.restore contact f.taken f.mailbox).2

end Filling

/-- A session that sends one connection. -/
structure Sending (σ δ : Type) where
  mailbox : σ
  device : δ
  phase : SendPhase := .start

namespace Sending

variable {σ δ : Type} (source : RecordSource σ) (writer : WritingEnd δ) (route : Route)

/-- Fill the connection. Nothing is written without keys or below the least capacity, but keys that
    were handed out are used up. -/
def run (s : Sending σ δ) : Except SessionFault SendOutcome × Sending σ δ :=
  match source.context route s.mailbox with
  | (.error fault, mailbox) => (.error (.mailbox fault), { s with mailbox })
  | (.ok none, mailbox) => (.ok (.aborted .noContext), { s with mailbox })
  | (.ok (some context), mailbox) =>
      if writer.capacity < Frame.minConnectionLength then
        (.ok (.aborted .insufficientCapacity), { s with mailbox })
      else
        match FrameWriter.ofContext context s.device writer.capacity writer.maxFrameLength with
        | .error fault => (.error (.connection fault), { s with mailbox })
        | .ok frames =>
            match Filling.run source writer.sink route.contact { mailbox, frames } with
            | (.ok (), f) =>
                (.ok (.completed f.frames.written f.taken.length),
                  { s with mailbox := f.mailbox, device := f.frames.outlet.device })
            | (.error fault, f) =>
                (.error fault,
                  { s with
                    mailbox := f.givenBack source route.contact
                    device := f.frames.outlet.device })

/-- Send the connection and release its end, as an exception unless it was completed. -/
def send (s : Sending σ δ) : Except SessionFault SendOutcome × Sending σ δ :=
  match s.phase with
  | .disposed _ => (.error .alreadyUsed, s)
  | .start =>
      let (result, s) := s.run source writer route
      let exception := match result with
        | .ok outcome => !outcome.isCompleted
        | .error _ => true
      let (_, device) := writer.dispose exception s.device
      (result, { s with device, phase := .disposed exception })

end Sending

end Courier.Session
