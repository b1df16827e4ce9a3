import Courier.Mailbox.Basic
import Courier.Session.Receive
import Courier.Session.Send

/-! # Parties

A party is a mailbox and the roster of the connections that it expects. Two
parties that share a root secret exchange records by connections.
-/

namespace Courier

structure Party where
  mailbox : Mailbox := {}
  roster : Roster := .ofWindow Window.defaultSize

namespace Party

/-- Expect the connections of the current period of every contact. -/
def expectIncoming (p : Party) : Except SessionFault Unit × Party :=
  let (result, roster) := p.mailbox.expectIncoming p.roster
  (result, { p with roster })

variable {δ ρ : Type}

def sending (p : Party) (device : δ) : Session.Sending Mailbox δ :=
  { mailbox := p.mailbox, device }

def receiving (p : Party) (device : ρ) : Session.Receiving Roster Mailbox ρ :=
  { recogniser := p.roster, mailbox := p.mailbox, device }

def send (p : Party) (route : Route) (writer : WritingEnd δ) (device : δ) :
    Except SessionFault Session.SendOutcome × δ × Party :=
  let (result, s) := (p.sending device).send Mailbox.source writer route
  (result, s.device, { p with mailbox := s.mailbox })

def receive (p : Party) (reader : ReadingEnd ρ) (device : ρ) :
    Except SessionFault Session.ReceiveOutcome × ρ × Party :=
  let (result, s) := (p.receiving device).receive Roster.recogniser Mailbox.receiver reader
  (result, s.device, { mailbox := s.mailbox, roster := s.recogniser })

end Party

end Courier
