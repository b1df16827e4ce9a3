import Courier.Mailbox.Basic
import Courier.Proofs.Mailbox.Conversation
import Courier.Proofs.Table

/-! # What becomes of a mailbox

Every operation on a mailbox leaves a conversation as it was, forgets it,
starts it anew, or changes it in one of a few ways. A mailbox is reachable if
some list of operations leads to it from the empty one, so what holds of new
conversations and survives every change holds of every reachable mailbox. Here
this gives that no acknowledgement is owed twice.
-/

namespace Courier

/-- An answer that is there, whatever the state after it. -/
theorem eq_of_toOption {ε α σ : Type} {result : Except ε α × σ} {a : α}
    (given : result.1.toOption = some a) : result = (.ok a, result.2) := by
  obtain ⟨_ | b, after⟩ := result
  · cases given
  · obtain rfl := Option.some.inj given
    rfl

/-- The ways in which an operation changes a conversation. -/
inductive Conversation.Change : Conversation → Conversation → Prop where
  | rotate (c : Conversation) : Change c c.rotate.2
  | queue (c : Conversation) (message : Bytes) :
      Change c { c with queued := c.queued ++ [message] }
  | requeue (c : Conversation) : Change c c.requeue
  | useStream (c : Conversation) {transport : TransportIndex} {lane : Lane}
      (found : c.lanes.find? transport = some lane) :
      Change c { c with lanes := c.lanes.insert transport { lane with next := lane.next + 1 } }
  | takeTransportUpdate (c : Conversation) (update : TransportUpdate) :
      Change c (c.takeTransportUpdate update).2
  | takeSubscriptionUpdate (c : Conversation) (update : SubscriptionUpdate) :
      Change c (c.takeSubscriptionUpdate update).2
  | takeAck (c : Conversation) (limit : Nat) : Change c (c.takeAck limit).2
  | takeBatch (c : Conversation) (limit : Nat) : Change c (c.takeBatch limit).2
  | restore (c : Conversation) (records : List Record) : Change c (c.restoreAll records)
  | receive (c : Conversation) (record : Record) : Change c (c.receive record)

namespace Mailbox

/-- What can be asked of a mailbox, questions that change nothing left out. -/
inductive Operation where
  | addContact (contact : ContactId) (root : Secret) (role : Role)
      (transports : List TransportIndex)
  | removeContact (contact : ContactId)
  | rotate (contact : ContactId)
  | queue (contact : ContactId) (message : Bytes)
  | publishTransports (update : TransportUpdate)
  | publishSubscriptions (update : SubscriptionUpdate)
  | requeue (contact : ContactId)
  | context (route : Route)
  | takeTransportUpdate (contact : ContactId)
  | takeSubscriptionUpdate (contact : ContactId)
  | takeAck (contact : ContactId) (limit : Nat)
  | takeBatch (contact : ContactId) (limit : Nat)
  | restore (contact : ContactId) (records : List Record)
  | receive (contact : ContactId) (record : Record)

/-- The mailbox after an operation, whether or not it succeeded. -/
def Operation.apply : Operation → Mailbox → Mailbox
  | addContact contact root role transports, m => (m.addContact contact root role transports).2
  | removeContact contact, m => m.removeContact contact
  | rotate contact, m => (m.rotate contact).2
  | queue contact message, m => (m.queue contact message).2
  | publishTransports update, m => m.publishTransports update
  | publishSubscriptions update, m => m.publishSubscriptions update
  | requeue contact, m => (m.requeue contact).2
  | context route, m => (m.context route).2
  | takeTransportUpdate contact, m => (m.takeTransportUpdate contact).2
  | takeSubscriptionUpdate contact, m => (m.takeSubscriptionUpdate contact).2
  | takeAck contact limit, m => (m.takeAck contact limit).2
  | takeBatch contact limit, m => (m.takeBatch contact limit).2
  | restore contact records, m => (m.restore contact records).2
  | receive contact record, m => (m.receive contact record).2

/-- The mailbox after operations, one after the other. -/
def applyAll (operations : List Operation) (m : Mailbox) : Mailbox :=
  operations.foldl (fun m operation => operation.apply m) m

/-- Some operations lead from the empty mailbox to this one. -/
def Reachable (m : Mailbox) : Prop :=
  ∃ operations, m = applyAll operations {}

/-! ## Conversations of a mailbox -/

@[simp] theorem conversation?_setConversation_self (m : Mailbox) (contact : ContactId)
    (c : Conversation) : (m.setConversation contact c).conversation? contact = some c := by
  simp [setConversation, conversation?]

theorem conversation?_setConversation_of_ne (m : Mailbox) {contact other : ContactId}
    (c : Conversation) (different : contact ≠ other) :
    (m.setConversation contact c).conversation? other = m.conversation? other := by
  simp [setConversation, conversation?, Table.find?_insert_of_ne _ _ different]

@[simp] theorem setConversation_setConversation (m : Mailbox) (contact : ContactId)
    (c c' : Conversation) :
    (m.setConversation contact c).setConversation contact c' = m.setConversation contact c' := by
  simp [setConversation]

theorem setConversation_of_conversation? {m : Mailbox} {contact : ContactId} {c : Conversation}
    (found : m.conversation? contact = some c) : m.setConversation contact c = m := by
  simp only [setConversation, Table.insert_of_find? (t := m.conversations) found]

@[simp] theorem transports_setConversation (m : Mailbox) (contact : ContactId) (c : Conversation) :
    (m.setConversation contact c).transports = m.transports := rfl

@[simp] theorem subscriptions_setConversation (m : Mailbox) (contact : ContactId)
    (c : Conversation) : (m.setConversation contact c).subscriptions = m.subscriptions := rfl

/-- A step on the conversation with a known contact. -/
theorem update_of_conversation? {α : Type} {m : Mailbox} {contact : ContactId} {c : Conversation}
    (found : m.conversation? contact = some c) (step : Conversation → α × Conversation) :
    m.update contact step = (.ok (step c).1, m.setConversation contact (step c).2) := by
  simp [update, found]

theorem update_of_unknown {α : Type} {m : Mailbox} {contact : ContactId}
    (unknown : m.conversation? contact = none) (step : Conversation → α × Conversation) :
    m.update contact step = (.error (.unknownContact contact), m) := by
  simp [update, unknown]

theorem ask_of_conversation? {α : Type} {m : Mailbox} {contact : ContactId} {c : Conversation}
    (found : m.conversation? contact = some c) (question : Conversation → α) :
    m.ask contact question = .ok (question c) := by
  simp [ask, found]

theorem restore_of_conversation? {m : Mailbox} {contact : ContactId} {c : Conversation}
    (found : m.conversation? contact = some c) (records : List Record) :
    source.restore contact records m =
      (.ok (), m.setConversation contact (c.restoreAll records)) :=
  update_of_conversation? found fun c => ((), c.restoreAll records)

/-- The answer to a request for the published transports is a question about the marks. -/
theorem fst_takeTransportUpdate (m : Mailbox) (contact : ContactId) :
    (m.takeTransportUpdate contact).1 = m.transports.elim (.ok none) fun update =>
      m.ask contact fun c =>
        if Conversation.isNewer update.version c.transportsSent then some update else none := by
  simp only [takeTransportUpdate]
  cases m.transports with
  | none => rfl
  | some update =>
      simp only [Option.elim_some, Mailbox.update, ask]
      split
      · rfl
      · simp only [Conversation.takeTransportUpdate]
        split <;> rfl

/-- The answer to a request for the published subscriptions is a question about the marks. -/
theorem fst_takeSubscriptionUpdate (m : Mailbox) (contact : ContactId) :
    (m.takeSubscriptionUpdate contact).1 = m.subscriptions.elim (.ok none) fun update =>
      m.ask contact fun c =>
        if Conversation.isNewer update.version c.subscriptionsSent then some update else none := by
  simp only [takeSubscriptionUpdate]
  cases m.subscriptions with
  | none => rfl
  | some update =>
      simp only [Option.elim_some, Mailbox.update, ask]
      split
      · rfl
      · simp only [Conversation.takeSubscriptionUpdate]
        split <;> rfl

/-! ## What an operation does to a contact -/

/-- What an operation makes of the state of one contact. -/
inductive Becomes : Option Conversation → Option Conversation → Prop where
  | same (before : Option Conversation) : Becomes before before
  | forgotten (before : Option Conversation) : Becomes before none
  | started (before : Option Conversation) {root : Secret} {role : Role}
      {transports : List TransportIndex} {c : Conversation}
      (start : Conversation.start root role transports = .ok c) : Becomes before (some c)
  | changed {c c' : Conversation} (change : Conversation.Change c c') : Becomes (some c) (some c')

/-- How an operation changes the conversation that it is about. -/
inductive Operation.Changes (contact : ContactId) :
    Operation → Conversation → Conversation → Prop where
  | rotate (c : Conversation) : Changes contact (.rotate contact) c c.rotate.2
  | queue (c : Conversation) (message : Bytes) :
      Changes contact (.queue contact message) c { c with queued := c.queued ++ [message] }
  | requeue (c : Conversation) : Changes contact (.requeue contact) c c.requeue
  | useStream (c : Conversation) {transport : TransportIndex} {lane : Lane}
      (found : c.lanes.find? transport = some lane) :
      Changes contact (.context ⟨contact, transport⟩) c
        { c with lanes := c.lanes.insert transport { lane with next := lane.next + 1 } }
  | takeTransportUpdate (c : Conversation) (update : TransportUpdate) :
      Changes contact (.takeTransportUpdate contact) c (c.takeTransportUpdate update).2
  | takeSubscriptionUpdate (c : Conversation) (update : SubscriptionUpdate) :
      Changes contact (.takeSubscriptionUpdate contact) c (c.takeSubscriptionUpdate update).2
  | takeAck (c : Conversation) (limit : Nat) :
      Changes contact (.takeAck contact limit) c (c.takeAck limit).2
  | takeBatch (c : Conversation) (limit : Nat) :
      Changes contact (.takeBatch contact limit) c (c.takeBatch limit).2
  | restore (c : Conversation) (records : List Record) :
      Changes contact (.restore contact records) c (c.restoreAll records)
  | receive (c : Conversation) (record : Record) :
      Changes contact (.receive contact record) c (c.receive record)

/-- What this operation makes of the state of one contact. -/
inductive Operation.Makes (contact : ContactId) :
    Operation → Option Conversation → Option Conversation → Prop where
  | same {operation : Operation} (before : Option Conversation) :
      Makes contact operation before before
  | forgotten (before : Option Conversation) : Makes contact (.removeContact contact) before none
  | started (before : Option Conversation) {root : Secret} {role : Role}
      {transports : List TransportIndex} {c : Conversation}
      (start : Conversation.start root role transports = .ok c) :
      Makes contact (.addContact contact root role transports) before (some c)
  | changed {operation : Operation} {c c' : Conversation}
      (changes : operation.Changes contact c c') : Makes contact operation (some c) (some c')

private theorem setConversation_makes {operation : Operation} {m : Mailbox} {contact : ContactId}
    {c : Conversation} (makes : operation.Makes contact (m.conversation? contact) (some c))
    (other : ContactId) :
    operation.Makes other (m.conversation? other)
      ((m.setConversation contact c).conversation? other) := by
  by_cases here : contact = other
  · subst here
    rw [conversation?_setConversation_self]
    exact makes
  · rw [conversation?_setConversation_of_ne m c here]
    exact .same _

private theorem update_makes {α : Type} {operation : Operation} (m : Mailbox)
    (contact : ContactId) {step : Conversation → α × Conversation}
    (changes : ∀ c, operation.Changes contact c (step c).2) (other : ContactId) :
    operation.Makes other (m.conversation? other)
      ((m.update contact step).2.conversation? other) := by
  cases found : m.conversation? contact with
  | none =>
      rw [update_of_unknown found]
      exact .same _
  | some c =>
      rw [update_of_conversation? found]
      refine setConversation_makes ?_ other
      rw [found]
      exact .changed (changes c)

theorem snd_rotate (m : Mailbox) (contact : ContactId) :
    (m.rotate contact).2 = (m.update contact Conversation.rotate).2 := by
  simp only [rotate]
  split <;> simp_all

/-- Keys are handed out for one more stream of a lane, or nothing changes. -/
theorem context_cases (m : Mailbox) (route : Route) :
    (∃ fault, m.context route = (.error fault, m)) ∨ m.context route = (.ok none, m) ∨
      ∃ c lane, m.conversation? route.contact = some c ∧
        c.lanes.find? route.transport = some lane ∧ lane.next ≤ maxContext ∧
        m.context route =
          (.ok (some { route, secret := lane.secret, stream := lane.next, role := c.role }),
            m.setConversation route.contact
              { c with
                lanes := c.lanes.insert route.transport { lane with next := lane.next + 1 } }) := by
  simp only [context]
  split
  · exact .inr (.inl rfl)
  next c found =>
    split
    · exact .inr (.inl rfl)
    next lane here =>
      split
      · exact .inl ⟨_, rfl⟩
      next range => exact .inr (.inr ⟨c, lane, found, here, Nat.le_of_not_lt range, rfl⟩)

/-- Without keys for the next stream, the mailbox stays as it is. -/
theorem context_of_not_some {m m' : Mailbox} {route : Route}
    {answer : Except MailboxFault (Option Context)} (asked : source.context route m = (answer, m'))
    (none : ∀ context, answer ≠ .ok (some context)) : m' = m := by
  rcases context_cases m route with ⟨fault, given⟩ | given | ⟨c, lane, -, -, -, given⟩
  · exact (Prod.mk.inj (asked.symm.trans given)).2
  · exact (Prod.mk.inj (asked.symm.trans given)).2
  · exact absurd (Prod.mk.inj (asked.symm.trans given)).1 (none _)

/-- Keys that are handed out use up a stream of a lane. -/
theorem context_of_some {m m' : Mailbox} {route : Route} {context : Context}
    (asked : source.context route m = (.ok (some context), m')) :
    ∃ c lane, m.conversation? route.contact = some c ∧
      c.lanes.find? route.transport = some lane ∧ lane.next ≤ maxContext ∧
      context = { route, secret := lane.secret, stream := lane.next, role := c.role } ∧
      m' = m.setConversation route.contact
        { c with lanes := c.lanes.insert route.transport { lane with next := lane.next + 1 } } := by
  rcases context_cases m route with ⟨fault, given⟩ | given | ⟨c, lane, found, here, range, given⟩
  · cases (Prod.mk.inj (asked.symm.trans given)).1
  · cases (Prod.mk.inj (asked.symm.trans given)).1
  · obtain ⟨same, rfl⟩ := Prod.mk.inj (asked.symm.trans given)
    exact ⟨c, lane, found, here, range, Option.some.inj (Except.ok.inj same), rfl⟩

theorem Operation.makes (operation : Operation) (m : Mailbox) (contact : ContactId) :
    operation.Makes contact (m.conversation? contact)
      ((operation.apply m).conversation? contact) := by
  cases operation with
  | addContact other root role transports =>
      simp only [apply, Mailbox.addContact]
      split
      next start => exact setConversation_makes (.started _ start) contact
      next => exact .same _
  | removeContact other =>
      simp only [apply, Mailbox.removeContact, conversation?]
      by_cases here : other = contact
      · subst here
        rw [Table.find?_erase_self]
        exact .forgotten _
      · rw [Table.find?_erase_of_ne _ here]
        exact .same _
  | rotate other =>
      rw [apply, snd_rotate]
      exact update_makes m other .rotate contact
  | queue other message => exact update_makes m other (.queue · message) contact
  | publishTransports update => exact .same _
  | publishSubscriptions update => exact .same _
  | requeue other => exact update_makes m other .requeue contact
  | context route =>
      simp only [apply]
      rcases context_cases m route with ⟨fault, refused⟩ | none | ⟨c, lane, found, here, -, used⟩
      · rw [refused]
        exact .same _
      · rw [none]
        exact .same _
      · rw [used]
        refine setConversation_makes ?_ contact
        rw [found]
        exact .changed (.useStream c here)
  | takeTransportUpdate other =>
      simp only [apply, Mailbox.takeTransportUpdate]
      cases m.transports with
      | none => exact .same _
      | some update => exact update_makes m other (.takeTransportUpdate · update) contact
  | takeSubscriptionUpdate other =>
      simp only [apply, Mailbox.takeSubscriptionUpdate]
      cases m.subscriptions with
      | none => exact .same _
      | some update => exact update_makes m other (.takeSubscriptionUpdate · update) contact
  | takeAck other limit => exact update_makes m other (.takeAck · limit) contact
  | takeBatch other limit => exact update_makes m other (.takeBatch · limit) contact
  | restore other records => exact update_makes m other (.restore · records) contact
  | receive other record => exact update_makes m other (.receive · record) contact

/-- An operation that neither adds nor removes a known contact leaves its conversation or changes
    it. -/
theorem Operation.exists_of_known (operation : Operation) {m : Mailbox} {contact : ContactId}
    {c : Conversation} (found : m.conversation? contact = some c) :
    (∃ c', (operation.apply m).conversation? contact = some c' ∧
      (c' = c ∨ operation.Changes contact c c')) ∨
    operation = .removeContact contact ∨
    ∃ root role transports, operation = .addContact contact root role transports := by
  have makes := operation.makes m contact
  rw [found] at makes
  generalize (operation.apply m).conversation? contact = after at makes ⊢
  cases makes with
  | same => exact .inl ⟨c, rfl, .inl rfl⟩
  | forgotten => exact .inr (.inl rfl)
  | started => exact .inr (.inr ⟨_, _, _, rfl⟩)
  | changed changes => exact .inl ⟨_, rfl, .inr changes⟩

theorem Operation.Changes.change {operation : Operation} {contact : ContactId}
    {c c' : Conversation} (changes : operation.Changes contact c c') :
    Conversation.Change c c' := by
  cases changes with
  | rotate => exact .rotate c
  | queue _ message => exact .queue c message
  | requeue => exact .requeue c
  | useStream _ found => exact .useStream c found
  | takeTransportUpdate _ update => exact .takeTransportUpdate c update
  | takeSubscriptionUpdate _ update => exact .takeSubscriptionUpdate c update
  | takeAck _ limit => exact .takeAck c limit
  | takeBatch _ limit => exact .takeBatch c limit
  | restore _ records => exact .restore c records
  | receive _ record => exact .receive c record

theorem Operation.apply_becomes (operation : Operation) (m : Mailbox) (contact : ContactId) :
    Becomes (m.conversation? contact) ((operation.apply m).conversation? contact) := by
  have makes := operation.makes m contact
  generalize (operation.apply m).conversation? contact = after at makes ⊢
  generalize m.conversation? contact = before at makes ⊢
  cases makes with
  | same => exact .same _
  | forgotten => exact .forgotten _
  | started _ start => exact .started _ start
  | changed changes => exact .changed changes.change

/-- What holds of new conversations and survives every change holds of every conversation. -/
theorem Reachable.forall_conversations {property : Conversation → Prop}
    (start : ∀ {root role transports c}, Conversation.start root role transports = .ok c →
      property c)
    (change : ∀ {c c'}, Conversation.Change c c' → property c → property c')
    {m : Mailbox} (reachable : m.Reachable) {contact : ContactId} {c : Conversation}
    (found : m.conversation? contact = some c) : property c := by
  obtain ⟨operations, rfl⟩ := reachable
  have step : ∀ (operations : List Operation) (m : Mailbox),
      (∀ contact c, m.conversation? contact = some c → property c) →
      ∀ contact c, (applyAll operations m).conversation? contact = some c → property c := by
    intro operations
    induction operations with
    | nil => exact fun m holds => holds
    | cons operation operations ih =>
        intro m holds
        refine ih (operation.apply m) fun contact c after => ?_
        have becomes := operation.apply_becomes m contact
        rw [after] at becomes
        generalize before : m.conversation? contact = earlier at becomes
        cases becomes with
        | same => exact holds contact c before
        | started _ started => exact start started
        | changed changed => exact change changed (holds contact _ before)
  exact step operations {} (fun contact c found => by simp [conversation?] at found) contact c found

end Mailbox

/-! ## Acknowledgements are owed once -/

namespace Conversation

theorem Change.nodup_acksOwed {c c' : Conversation} (change : Change c c')
    (distinct : c.acksOwed.Nodup) : c'.acksOwed.Nodup := by
  cases change with
  | queue | requeue | useStream => exact distinct
  | rotate => rwa [snd_rotate]
  | takeTransportUpdate => rwa [snd_takeTransportUpdate]
  | takeSubscriptionUpdate => rwa [snd_takeSubscriptionUpdate]
  | takeBatch => rwa [snd_takeBatch]
  | takeAck =>
      rw [snd_takeAck]
      exact distinct.sublist (List.drop_sublist _ _)
  | restore records =>
      simp only [restoreAll]
      induction records with
      | nil => exact distinct
      | cons record records ih =>
          rw [List.foldr_cons]
          cases record with
          | transportUpdate => rwa [restore_transportUpdate]
          | subscriptionUpdate => rwa [restore_subscriptionUpdate]
          | ack ack => exact nodup_oweFirst _ ih
          | batch batch => exact ih
  | receive record =>
      cases record with
      | transportUpdate => rwa [receive_transportUpdate]
      | subscriptionUpdate => rwa [receive_subscriptionUpdate]
      | ack ack => exact distinct
      | batch batch =>
          rw [receive_batch]
          by_cases owed : batch.id ∈ c.acksOwed
          · simpa [owed] using distinct
          · have new : ∀ id ∈ c.acksOwed, id ≠ batch.id := by
              rintro id member rfl
              exact owed member
            simpa [owed, List.nodup_append, distinct] using new

end Conversation

namespace Mailbox

theorem Becomes.nodup_acksOwed {before after : Option Conversation} (becomes : Becomes before after)
    (distinct : ∀ c, before = some c → c.acksOwed.Nodup) :
    ∀ c, after = some c → c.acksOwed.Nodup := by
  intro c held
  cases becomes with
  | same => exact distinct c held
  | forgotten => cases held
  | started _ started =>
      obtain rfl := Option.some.inj held
      obtain ⟨lanes, rfl⟩ := Conversation.start_eq_ok started
      exact List.nodup_nil
  | changed change =>
      obtain rfl := Option.some.inj held
      exact change.nodup_acksOwed (distinct _ rfl)

/-- In a reachable mailbox, no acknowledgement is owed twice. -/
theorem Reachable.nodup_acksOwed {m : Mailbox} (reachable : m.Reachable) {contact : ContactId}
    {c : Conversation} (found : m.conversation? contact = some c) : c.acksOwed.Nodup := by
  have fresh : ∀ {root role transports c}, Conversation.start root role transports = .ok c →
      c.acksOwed.Nodup := by
    intro root role transports c started
    obtain ⟨lanes, rfl⟩ := Conversation.start_eq_ok started
    exact List.nodup_nil
  exact reachable.forall_conversations fresh Conversation.Change.nodup_acksOwed found

end Mailbox

end Courier
