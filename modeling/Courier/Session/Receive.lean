import Courier.Connection.FrameReader
import Courier.Record.Decode
import Courier.Session.Collaborators

/-! # Receiving a connection

The tag of a connection tells who sent it. Its frames are then opened under the
keys of that sender, and every record goes to the receiver as soon as it is
read, so records ahead of a fault are delivered. The reading end is released in
any case.
-/

namespace Courier.Session

inductive ReceiveOutcome where
  /-- All records of the connection were delivered. -/
  | completed (contact : ContactId) (records : Nat)
  /-- The tag belongs to no known contact. -/
  | unrecognised
  deriving DecidableEq, Repr

/-- How far the delivery of a connection has come. -/
structure Delivery (σ ρ : Type) where
  mailbox : σ
  frames : FrameReader ρ
  count : Nat := 0

namespace Delivery

variable {σ ρ : Type} (receiver : RecordReceiver σ) (source : Source ρ) (contact : ContactId)

/-- Deliver the record in every frame that is left. A frame without payload holds none. -/
def run (d : Delivery σ ρ) : Except SessionFault Unit × Delivery σ ρ :=
  match _h : d.frames.next source with
  | (.error fault, frames) => (.error (.connection fault), { d with frames })
  | (.ok none, frames) => (.ok (), { d with frames })
  | (.ok (some payload), frames) =>
      if payload.isEmpty then
        run { d with frames }
      else
        match Record.decode payload with
        | .error fault => (.error (.record fault), { d with frames })
        | .ok record =>
            match receiver.receive contact record d.mailbox with
            | (.error fault, mailbox) => (.error (.mailbox fault), { d with mailbox, frames })
            | (.ok (), mailbox) => run { mailbox, frames, count := d.count + 1 }
  termination_by Frame.maxNumber + 1 - d.frames.frames
  decreasing_by
    all_goals
      obtain ⟨left, next⟩ := FrameReader.next_frames _h
      simp only [next]
      omega

end Delivery

/-- A session that receives one connection. -/
structure Receiving (κ σ ρ : Type) where
  recogniser : κ
  mailbox : σ
  device : ρ
  used : Bool := false

namespace Receiving

variable {κ σ ρ : Type} (recogniser : Recogniser κ) (receiver : RecordReceiver σ)
  (reader : ReadingEnd ρ)

/-- Release the reading end. That this may fail changes nothing for the session. -/
def release (exception recognised : Bool) (s : Receiving κ σ ρ) : Receiving κ σ ρ :=
  { s with device := (reader.dispose exception recognised s.device).2 }

/-- Read the tag and look up who sent it. -/
def identify (s : Receiving κ σ ρ) :
    Except SessionFault (Option Context) × Receiving κ σ ρ :=
  match Tag.read reader.source s.device with
  | (.error fault, device) => (.error (.connection fault), { s with device })
  | (.ok tag, device) =>
      match recogniser.recognise tag s.recogniser with
      | (.error fault, recogniser) => (.error (.connection fault), { s with device, recogniser })
      | (.ok context, recogniser) => (.ok context, { s with device, recogniser })

/-- Deliver the records of the connection that `context` keys; the answer is their number. -/
def deliver (context : Context) (s : Receiving κ σ ρ) :
    Except SessionFault Nat × Receiving κ σ ρ :=
  match FrameReader.ofContext context s.device reader.maxFrameLength with
  | .error fault => (.error (.connection fault), s)
  | .ok frames =>
      match Delivery.run receiver reader.source context.route.contact
          { mailbox := s.mailbox, frames } with
      | (.error fault, d) =>
          (.error fault, { s with mailbox := d.mailbox, device := d.frames.device })
      | (.ok (), d) => (.ok d.count, { s with mailbox := d.mailbox, device := d.frames.device })

/-- Receive the connection and release its end. -/
def receive (s : Receiving κ σ ρ) : Except SessionFault ReceiveOutcome × Receiving κ σ ρ :=
  if s.used then
    (.error .alreadyUsed, s)
  else
    match identify recogniser reader { s with used := true } with
    | (.error fault, s) => (.error fault, s.release reader true false)
    | (.ok none, s) => (.ok .unrecognised, s.release reader false false)
    | (.ok (some context), s) =>
        match deliver receiver reader context s with
        | (.error fault, s) => (.error fault, s.release reader true true)
        | (.ok count, s) =>
            (.ok (.completed context.route.contact count), s.release reader false true)

end Receiving

end Courier.Session
