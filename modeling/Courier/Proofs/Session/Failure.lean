import Courier.Party
import Courier.Proofs.Mailbox.Lanes
import Courier.Proofs.Mailbox.Taking
import Courier.Proofs.Secret
import Courier.Session.Memory

/-! # A failed connection changes nothing

Whatever a connection took from a mailbox before it failed is given back latest
first. This undoes every taking, whether the fault came from the sink, from the
flush, or before anything was written, so the mailbox is left as it was but for
the stream number that was handed out. That number is used up in any case: after
the keys were handed out, nothing that a session does touches a lane.
-/

namespace Courier

/-- What a failed connection leaves of the conversation that it was filled from. -/
structure Conversation.Unsent (transport : TransportIndex) (before after : Conversation) :
    Prop where
  role : after.role = before.role
  period : after.period = before.period
  queued : after.queued = before.queued
  outstanding : after.outstanding = before.outstanding
  acksOwed : after.acksOwed = before.acksOwed
  received : after.received = before.received
  seen : after.seen = before.seen
  remoteTransports : after.remoteTransports = before.remoteTransports
  remoteSubscriptions : after.remoteSubscriptions = before.remoteSubscriptions
  /-- One stream number may have been handed out. -/
  lanes : after.lanes = before.lanes ∨ ∃ lane, before.lanes.find? transport = some lane ∧
    after.lanes = before.lanes.insert transport { lane with next := lane.next + 1 }

/-- What a failed connection on a route leaves of a mailbox. -/
structure Mailbox.Unsent (route : Route) (before after : Mailbox) : Prop where
  transports : after.transports = before.transports
  subscriptions : after.subscriptions = before.subscriptions
  others : ∀ contact, contact ≠ route.contact →
    after.conversation? contact = before.conversation? contact
  unknown : before.conversation? route.contact = none → after.conversation? route.contact = none
  known : ∀ c, before.conversation? route.contact = some c →
    ∃ c', after.conversation? route.contact = some c' ∧ c.Unsent route.transport c'
  transportsOffered : ∀ contact,
    (after.takeTransportUpdate contact).1 = (before.takeTransportUpdate contact).1
  subscriptionsOffered : ∀ contact,
    (after.takeSubscriptionUpdate contact).1 = (before.takeSubscriptionUpdate contact).1

namespace Mailbox

theorem Unsent.refl (route : Route) (m : Mailbox) : m.Unsent route m where
  transports := rfl
  subscriptions := rfl
  others := fun _ _ => rfl
  unknown := id
  known := fun c found => ⟨c, found, ⟨rfl, rfl, rfl, rfl, rfl, rfl, rfl, rfl, rfl, .inl rfl⟩⟩
  transportsOffered := fun _ => rfl
  subscriptionsOffered := fun _ => rfl

theorem Unsent.nodup_acksOwed {route : Route} {before after : Mailbox}
    (unsent : before.Unsent route after)
    (distinct : ∀ c, before.conversation? route.contact = some c → c.acksOwed.Nodup)
    (c : Conversation) (found : after.conversation? route.contact = some c) :
    c.acksOwed.Nodup := by
  cases known : before.conversation? route.contact with
  | none =>
      rw [unsent.unknown known] at found
      cases found
  | some start =>
      obtain ⟨c', found', left⟩ := unsent.known start known
      obtain rfl := Option.some.inj (found'.symm.trans found)
      rw [left.acksOwed]
      exact distinct start known

/-- What is offered to a contact depends on its marks, and kept ones make no difference. -/
theorem unsent_of_kept {m : Mailbox} {route : Route} {c used : Conversation}
    (found : m.conversation? route.contact = some c)
    (handedOut : used = c ∨ ∃ lane, c.lanes.find? route.transport = some lane ∧
      used = { c with
        lanes := c.lanes.insert route.transport { lane with next := lane.next + 1 } })
    (c' : Conversation) (kept : Conversation.Kept m.transports m.subscriptions used c') :
    m.Unsent route (m.setConversation route.contact c') := by
  have marks : used.transportsSent = c.transportsSent ∧
      used.subscriptionsSent = c.subscriptionsSent := by
    rcases handedOut with rfl | ⟨lane, -, rfl⟩ <;> exact ⟨rfl, rfl⟩
  have asked_same : ∀ {α : Type} {question : Conversation → α} (contact : ContactId),
      question c' = question c →
      (m.setConversation route.contact c').ask contact question = m.ask contact question := by
    intro α question contact same
    by_cases here : route.contact = contact
    · subst here
      rw [ask_of_conversation? found,
        ask_of_conversation? (conversation?_setConversation_self m _ c'), same]
    · simp only [ask, conversation?_setConversation_of_ne m c' here]
  constructor
  case transports => rfl
  case subscriptions => rfl
  case others =>
    intro contact different
    exact conversation?_setConversation_of_ne m c' different.symm
  case unknown =>
    intro unknown
    rw [found] at unknown
    cases unknown
  case known =>
    intro other same
    rw [found, Option.some.injEq] at same
    subst same
    refine ⟨c', conversation?_setConversation_self m route.contact c', ?_⟩
    rcases handedOut with rfl | ⟨lane, here, rfl⟩
    · exact { kept with lanes := .inl kept.lanes }
    · exact { kept with lanes := .inr ⟨lane, here, kept.lanes⟩ }
  case transportsOffered =>
    intro contact
    rw [fst_takeTransportUpdate, fst_takeTransportUpdate, transports_setConversation]
    cases published : m.transports with
    | none => rfl
    | some update =>
        have member : update.version ∈ m.transports.map (·.version) := by simp [published]
        have same := kept.transportsSent.isNewer member
        exact asked_same contact (by simp only [same, marks.1])
  case subscriptionsOffered =>
    intro contact
    rw [fst_takeSubscriptionUpdate, fst_takeSubscriptionUpdate, subscriptions_setConversation]
    cases published : m.subscriptions with
    | none => rfl
    | some update =>
        have member : update.version ∈ m.subscriptions.map (·.version) := by simp [published]
        have same := kept.subscriptionsSent.isNewer member
        exact asked_same contact (by simp only [same, marks.2])

end Mailbox

namespace Session

variable {δ : Type}

namespace Filling

/-- Giving back all that was taken leads back to the conversation `start`, up to marks. -/
def Recovers (m : Mailbox) (contact : ContactId) (start : Conversation)
    (f : Filling Mailbox δ) : Prop :=
  ∃ c, f.mailbox = m.setConversation contact c ∧ c.acksOwed.Nodup ∧
    Conversation.Kept m.transports m.subscriptions start (c.restoreAll f.taken)

variable {sink : Sink δ} {m : Mailbox} {contact : ContactId} {start : Conversation}
  {f f' : Filling Mailbox δ}

/-- Nothing was taken from a conversation that was handed out just now. -/
theorem recovers_used {used : Conversation} {frames : FrameWriter δ}
    (owed : used.acksOwed.Nodup) :
    Recovers m contact used { mailbox := m.setConversation contact used, frames } :=
  ⟨used, rfl, owed, .refl _⟩

/-- A record that was taken goes to the front of what is given back. -/
private theorem recovers_of_takes {c c' : Conversation} {record : Record} {frames : FrameWriter δ}
    (held : f.mailbox = m.setConversation contact c) (distinct : c.acksOwed.Nodup)
    (kept : Conversation.Kept m.transports m.subscriptions start (c.restoreAll f.taken))
    (takes : Conversation.Takes f.mailbox.transports f.mailbox.subscriptions c record c') :
    Recovers m contact start { mailbox := f.mailbox.setConversation contact c', frames,
                               taken := f.taken ++ [record] } := by
  rw [held] at takes
  exact ⟨c', by simp [held], takes.nodup_acksOwed distinct, takes.restoreAll distinct kept⟩

theorem Recovers.move (recovers : f.Recovers m contact start)
    (move : Move Mailbox.source sink contact f f') : f'.Recovers m contact start := by
  obtain ⟨c, held, distinct, kept⟩ := recovers
  have found : f.mailbox.conversation? contact = some c := by simp [held]
  rcases Mailbox.move_cases found distinct move with
    ⟨c', rfl, same⟩ | ⟨record, c', frames, takes, -, rfl⟩
  · rw [held] at same
    exact ⟨c', by simp [held], same.acksOwed.symm ▸ distinct, kept.trans (same.restoreAll f.taken)⟩
  · exact recovers_of_takes held distinct kept takes

theorem Recovers.moves (recovers : f.Recovers m contact start)
    (moves : Moves Mailbox.source sink contact f f') : f'.Recovers m contact start := by
  induction moves with
  | refl => exact recovers
  | tail _ move ih => exact ih.move move

theorem Recovers.fails {fault : SessionFault} (recovers : f.Recovers m contact start)
    (fails : Fails Mailbox.source sink contact f fault f') : f'.Recovers m contact start := by
  obtain ⟨c, held, distinct, kept⟩ := recovers
  have found : f.mailbox.conversation? contact = some c := by simp [held]
  obtain ⟨record, c', frames, takes, rfl⟩ := Mailbox.fails_cases found fails
  exact recovers_of_takes held distinct kept takes

/-- Whatever a filling comes to, all that it took is still to be given back. -/
theorem Recovers.run {result : Except SessionFault Unit} (recovers : f.Recovers m contact start)
    (ran : run Mailbox.source sink contact f = (result, f')) : f'.Recovers m contact start := by
  cases result with
  | error fault =>
      obtain ⟨last, moves, fails | ⟨cause, closed, -, -, rfl⟩⟩ := run_error ran
      · exact (recovers.moves moves).fails fails
      · have before := recovers.moves moves
        exact before
  | ok =>
      obtain ⟨last, closed, moves, -, rfl⟩ := run_ok ran
      have before := recovers.moves moves
      exact before

theorem Recovers.givenBack (recovers : f.Recovers m contact start) :
    ∃ c, f.givenBack Mailbox.source contact = m.setConversation contact c ∧
      Conversation.Kept m.transports m.subscriptions start c := by
  obtain ⟨c, held, -, kept⟩ := recovers
  refine ⟨c.restoreAll f.taken, ?_, kept⟩
  simp only [Filling.givenBack]
  split
  next none => simp [List.isEmpty_iff.mp none, held, Conversation.restoreAll]
  · have found : f.mailbox.conversation? contact = some c := by simp [held]
    rw [Mailbox.restore_of_conversation? found, held, Mailbox.setConversation_setConversation]

/-! ### Lanes -/

variable {route : Route}

theorem Recovers.lane? (recovers : f.Recovers m route.contact start) :
    f.mailbox.lane? route = (m.setConversation route.contact start).lane? route := by
  obtain ⟨c, held, -, kept⟩ := recovers
  obtain ⟨lanes, role⟩ := Conversation.restoreAll_lanes f.taken c
  rw [held]
  refine Mailbox.lane?_setConversation_congr ?_ ?_
  · exact lanes.symm.trans kept.lanes
  · exact role.symm.trans kept.role

theorem Recovers.lane?_givenBack (recovers : f.Recovers m route.contact start) :
    (f.givenBack Mailbox.source route.contact).lane? route =
      (m.setConversation route.contact start).lane? route := by
  obtain ⟨c, held, kept⟩ := recovers.givenBack
  rw [held]
  exact Mailbox.lane?_setConversation_congr kept.lanes kept.role

end Filling

namespace Sending

/-- However a session ends, it leaves its lane as it was when the keys had been handed out. -/
theorem lane?_of_run {writer : WritingEnd δ} {route : Route} {s s' : Sending Mailbox δ}
    {result : Except SessionFault SendOutcome}
    (distinct : ∀ c, s.mailbox.conversation? route.contact = some c → c.acksOwed.Nodup)
    (ran : s.run Mailbox.source writer route = (result, s')) :
    s'.mailbox.lane? route = (s.mailbox.context route).2.lane? route := by
  have handed : ∀ {answer mailbox}, Mailbox.source.context route s.mailbox = (answer, mailbox) →
      (s.mailbox.context route).2 = mailbox := fun asked => congrArg Prod.snd asked
  cases runs_of_run ran with
  | refused asked | unkeyed asked | narrow asked | unmade asked => rw [handed asked]
  | completed asked made filled =>
      rw [handed asked]
      obtain ⟨c, lane, found, -, -, -, rfl⟩ := Mailbox.context_of_some asked
      refine ((Filling.recovers_used ?_).run filled).lane?
      exact distinct c found
  | failed asked made filled =>
      rw [handed asked]
      obtain ⟨c, lane, found, -, -, -, rfl⟩ := Mailbox.context_of_some asked
      refine ((Filling.recovers_used ?_).run filled).lane?_givenBack
      exact distinct c found

/-- A filling that went wrong gives back what it took from a conversation that was handed out. -/
private theorem unsent_of_filling {route : Route} {m : Mailbox} {used : Conversation}
    {frames : FrameWriter δ} {f : Filling Mailbox δ} {fault : SessionFault}
    (kept : ∀ c', Conversation.Kept m.transports m.subscriptions used c' →
      m.Unsent route (m.setConversation route.contact c')) (owed : used.acksOwed.Nodup)
    (filled : Filling.run Mailbox.source sink route.contact
      { mailbox := m.setConversation route.contact used, frames } = (.error fault, f)) :
    m.Unsent route (f.givenBack Mailbox.source route.contact) := by
  obtain ⟨c', held, same⟩ := ((Filling.recovers_used owed).run filled).givenBack
  exact held ▸ kept c' same

/-- A filling that came to nothing took nothing from a conversation that was handed out. -/
private theorem unsent_of_empty_filling {route : Route} {m : Mailbox} {used : Conversation}
    {frames : FrameWriter δ} {f : Filling Mailbox δ} {sink : Sink δ}
    (kept : ∀ c', Conversation.Kept m.transports m.subscriptions used c' →
      m.Unsent route (m.setConversation route.contact c')) (owed : used.acksOwed.Nodup)
    (filled : Filling.run Mailbox.source sink route.contact
      { mailbox := m.setConversation route.contact used, frames } = (.ok (), f))
    (nothing : f.taken = []) : m.Unsent route f.mailbox := by
  obtain ⟨c', held, -, same⟩ := (Filling.recovers_used owed).run filled
  rw [nothing] at same
  exact held ▸ kept c' same

private theorem unsent_of_fruitless_run {writer : WritingEnd δ} {route : Route}
    {s s' : Sending Mailbox δ} {result : Except SessionFault SendOutcome}
    (distinct : ∀ c, s.mailbox.conversation? route.contact = some c → c.acksOwed.Nodup)
    (fruitless : ∀ bytes records, result = .ok (.completed bytes records) → records = 0)
    (ran : s.run Mailbox.source writer route = (result, s')) :
    s.mailbox.Unsent route s'.mailbox := by
  cases runs_of_run ran with
  | refused asked =>
      obtain rfl := Mailbox.context_of_not_some asked fun context same => by cases same
      exact .refl route _
  | unkeyed asked =>
      obtain rfl := Mailbox.context_of_not_some asked fun context same => by cases same
      exact .refl route _
  | narrow asked | unmade asked =>
      obtain ⟨c, lane, found, here, -, -, rfl⟩ := Mailbox.context_of_some asked
      exact Mailbox.unsent_of_kept found (.inr ⟨lane, here, rfl⟩) _ (.refl _)
  | completed asked made filled =>
      obtain ⟨c, lane, found, here, -, -, rfl⟩ := Mailbox.context_of_some asked
      have none := List.eq_nil_of_length_eq_zero (fruitless _ _ rfl)
      exact unsent_of_empty_filling (Mailbox.unsent_of_kept found (.inr ⟨lane, here, rfl⟩))
        (distinct c found) filled none
  | failed asked made filled =>
      obtain ⟨c, lane, found, here, -, -, rfl⟩ := Mailbox.context_of_some asked
      exact unsent_of_filling (Mailbox.unsent_of_kept found (.inr ⟨lane, here, rfl⟩))
        (distinct c found) filled

end Sending

end Session

/-- However a connection ends, it leaves its lane as it was when the keys had been handed out. -/
theorem Party.lane?_of_send {δ : Type} {route : Route} {p : Party}
    (distinct : ∀ c, p.mailbox.conversation? route.contact = some c → c.acksOwed.Nodup)
    (writer : WritingEnd δ) (device : δ) :
    (p.send route writer device).2.2.mailbox.lane? route =
      (p.mailbox.context route).2.lane? route := by
  simp only [send, sending, Session.Sending.send]
  rcases ran : Session.Sending.run Mailbox.source writer route { mailbox := p.mailbox, device }
    with ⟨result, s⟩
  have same := Session.Sending.lane?_of_run distinct ran
  exact same

/-- A connection without records, however it ends, leaves the mailbox of its sender as it was, up to
    the stream number that it used. -/
theorem Party.unsent_of_send {δ : Type} {writer : WritingEnd δ} {route : Route} {p p' : Party}
    {device device' : δ} {result : Except SessionFault Session.SendOutcome}
    (distinct : ∀ c, p.mailbox.conversation? route.contact = some c → c.acksOwed.Nodup)
    (fruitless : ∀ bytes records, result = .ok (.completed bytes records) → records = 0)
    (sent : p.send route writer device = (result, device', p')) :
    p.mailbox.Unsent route p'.mailbox ∧ p'.roster = p.roster := by
  simp only [send, sending, Session.Sending.send] at sent
  rcases ran : Session.Sending.run Mailbox.source writer route { mailbox := p.mailbox, device }
    with ⟨result', s⟩
  rw [ran] at sent
  obtain ⟨rfl, rfl, rfl⟩ := sent
  exact ⟨Session.Sending.unsent_of_fruitless_run distinct fruitless ran, rfl⟩

end Courier
