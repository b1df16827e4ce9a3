import Courier.Proofs.Mailbox.Operations
import Courier.Proofs.Session.Filling

/-! # Taking records and giving them back

A mailbox hands out four kinds of records. Each leaves the conversation in a
state from which giving the record back leads to the state before, except that
the mark of an update which was due may be gone; such an update is due still.
Records that were taken one after the other are given back latest first, so the
law for one record carries over to any number of them.
-/

namespace Courier

/-- The batch that a record is, under its name. -/
def Record.batch? : Record → Option (BatchId × Batch)
  | .batch sent => some (sent.id, sent)
  | transportUpdate _ | subscriptionUpdate _ | ack _ => none

/-- The batches among records. -/
def Record.batches (records : List Record) : List Batch :=
  (records.filterMap Record.batch?).map (·.2)

theorem Record.batches_append (records more : List Record) :
    batches (records ++ more) = batches records ++ batches more := by
  simp [batches, List.filterMap_append]

theorem fitting_append_drop {α : Type} (limit : Nat) (size : α → Nat) (count used : Nat)
    (items : List α) :
    fitting limit size count used items ++
      items.drop (fitting limit size count used items).length = items := by
  induction items generalizing count used with
  | nil => rfl
  | cons item items ih =>
      simp only [fitting]
      split
      · simp [ih]
      · rfl

namespace Conversation

/-! ## Taking -/

/-- What a conversation hands out, and the conversation after it, where these updates are
    published. -/
inductive Takes (transports : Option TransportUpdate) (subscriptions : Option SubscriptionUpdate) :
    Conversation → Record → Conversation → Prop where
  | transportUpdate (c : Conversation) {update : TransportUpdate}
      (published : transports = some update)
      (due : isNewer update.version c.transportsSent = true) :
      Takes transports subscriptions c (.transportUpdate update)
        { c with transportsSent := some update.version }
  | subscriptionUpdate (c : Conversation) {update : SubscriptionUpdate}
      (published : subscriptions = some update)
      (due : isNewer update.version c.subscriptionsSent = true) :
      Takes transports subscriptions c (.subscriptionUpdate update)
        { c with subscriptionsSent := some update.version }
  | ack (c : Conversation) {ids rest : List BatchId} (split : c.acksOwed = ids ++ rest) :
      Takes transports subscriptions c (.ack ⟨ids⟩) { c with acksOwed := rest }
  | batch (c : Conversation) {messages rest : List Bytes} (split : c.queued = messages ++ rest) :
      Takes transports subscriptions c (.batch ⟨messages⟩)
        { c with
          queued := rest
          outstanding := c.outstanding ++ [(Batch.id ⟨messages⟩, ⟨messages⟩)] }

/-! ## Giving back -/

/-- The mark of a sent update is as before, or it is gone and the published update was due. -/
def MarkKept (published before after : Option UInt64) : Prop :=
  after = before ∨ after = none ∧ ∀ version ∈ published, isNewer version before = true

/-- Two states of a conversation differ at most in the marks of updates that are due in both. -/
structure Kept (transports : Option TransportUpdate) (subscriptions : Option SubscriptionUpdate)
    (before after : Conversation) : Prop where
  role : after.role = before.role
  period : after.period = before.period
  lanes : after.lanes = before.lanes
  queued : after.queued = before.queued
  outstanding : after.outstanding = before.outstanding
  acksOwed : after.acksOwed = before.acksOwed
  received : after.received = before.received
  seen : after.seen = before.seen
  remoteTransports : after.remoteTransports = before.remoteTransports
  remoteSubscriptions : after.remoteSubscriptions = before.remoteSubscriptions
  transportsSent : MarkKept (transports.map (·.version)) before.transportsSent after.transportsSent
  subscriptionsSent :
    MarkKept (subscriptions.map (·.version)) before.subscriptionsSent after.subscriptionsSent

theorem MarkKept.trans {published before between after : Option UInt64}
    (first : MarkKept published before between) (second : MarkKept published between after) :
    MarkKept published before after := by
  rcases second with rfl | ⟨gone, due⟩
  · exact first
  · refine .inr ⟨gone, ?_⟩
    rcases first with rfl | ⟨-, due⟩ <;> exact due

theorem MarkKept.cleared {published before after : Option UInt64} (version : UInt64)
    (kept : MarkKept published before after) :
    MarkKept published (if before = some version then none else before)
      (if after = some version then none else after) := by
  rcases kept with rfl | ⟨rfl, due⟩
  · exact .inl rfl
  · refine .inr ⟨by simp, fun newer member => ?_⟩
    split
    · rfl
    · exact due newer member

/-- A mark that is kept makes no difference to what is due. -/
theorem MarkKept.isNewer {published before after : Option UInt64}
    (kept : MarkKept published before after) {version : UInt64} (member : version ∈ published) :
    isNewer version after = isNewer version before := by
  rcases kept with rfl | ⟨rfl, due⟩
  · rfl
  · rw [due version member]
    rfl

variable {transports : Option TransportUpdate} {subscriptions : Option SubscriptionUpdate}

theorem Kept.refl (c : Conversation) : Kept transports subscriptions c c where
  role := rfl
  period := rfl
  lanes := rfl
  queued := rfl
  outstanding := rfl
  acksOwed := rfl
  received := rfl
  seen := rfl
  remoteTransports := rfl
  remoteSubscriptions := rfl
  transportsSent := .inl rfl
  subscriptionsSent := .inl rfl

theorem Kept.trans {before between after : Conversation}
    (first : Kept transports subscriptions before between)
    (second : Kept transports subscriptions between after) :
    Kept transports subscriptions before after where
  role := second.role.trans first.role
  period := second.period.trans first.period
  lanes := second.lanes.trans first.lanes
  queued := second.queued.trans first.queued
  outstanding := second.outstanding.trans first.outstanding
  acksOwed := second.acksOwed.trans first.acksOwed
  received := second.received.trans first.received
  seen := second.seen.trans first.seen
  remoteTransports := second.remoteTransports.trans first.remoteTransports
  remoteSubscriptions := second.remoteSubscriptions.trans first.remoteSubscriptions
  transportsSent := first.transportsSent.trans second.transportsSent
  subscriptionsSent := first.subscriptionsSent.trans second.subscriptionsSent

theorem Kept.restore (record : Record) {before after : Conversation}
    (kept : Kept transports subscriptions before after) :
    Kept transports subscriptions (before.restore record) (after.restore record) := by
  cases record with
  | transportUpdate update =>
      rw [restore_transportUpdate, restore_transportUpdate]
      exact { kept with transportsSent := kept.transportsSent.cleared update.version }
  | subscriptionUpdate update =>
      rw [restore_subscriptionUpdate, restore_subscriptionUpdate]
      exact { kept with subscriptionsSent := kept.subscriptionsSent.cleared update.version }
  | ack ack =>
      exact { kept with acksOwed := congrArg (oweFirst ack.batchIds) kept.acksOwed }
  | batch batch =>
      exact { kept with
        queued := congrArg (batch.messages ++ ·) kept.queued
        outstanding := congrArg (withoutLast batch.id) kept.outstanding }

theorem Kept.restoreAll (records : List Record) {before after : Conversation}
    (kept : Kept transports subscriptions before after) :
    Kept transports subscriptions (before.restoreAll records) (after.restoreAll records) := by
  induction records with
  | nil => exact kept
  | cons record records ih => exact ih.restore record

theorem withoutLast_append_singleton (id : BatchId) (batch : Batch)
    (batches : List (BatchId × Batch)) : withoutLast id (batches ++ [(id, batch)]) = batches := by
  simp [withoutLast]

/-- Giving a record back undoes taking it. -/
theorem Takes.restore {c c' : Conversation} {record : Record} (distinct : c.acksOwed.Nodup)
    (takes : Takes transports subscriptions c record c') :
    Kept transports subscriptions c (c'.restore record) := by
  have same : Kept transports subscriptions c c := .refl c
  cases takes with
  | transportUpdate published due =>
      rw [restore_transportUpdate]
      refine { same with transportsSent := .inr ⟨by simp, ?_⟩ }
      simp [published, due]
  | subscriptionUpdate published due =>
      rw [restore_subscriptionUpdate]
      refine { same with subscriptionsSent := .inr ⟨by simp, ?_⟩ }
      simp [published, due]
  | ack split =>
      rw [split] at distinct
      exact { same with acksOwed := (oweFirst_of_disjoint distinct).trans split.symm }
  | batch split =>
      exact { same with
        queued := split.symm
        outstanding := withoutLast_append_singleton _ _ _ }

/-- Records that were given back up to here are given back with one more that was taken last. -/
theorem Takes.restoreAll {start c c' : Conversation} {records : List Record} {record : Record}
    (distinct : c.acksOwed.Nodup) (takes : Takes transports subscriptions c record c')
    (kept : Kept transports subscriptions start (c.restoreAll records)) :
    Kept transports subscriptions start (c'.restoreAll (records ++ [record])) := by
  have undone : c'.restoreAll (records ++ [record]) = (c'.restore record).restoreAll records := by
    simp [Conversation.restoreAll, List.foldr_append]
  rw [undone]
  exact kept.trans ((takes.restore distinct).restoreAll records)

theorem Takes.nodup_acksOwed {c c' : Conversation} {record : Record}
    (takes : Takes transports subscriptions c record c') (distinct : c.acksOwed.Nodup) :
    c'.acksOwed.Nodup := by
  cases takes with
  | transportUpdate | subscriptionUpdate | batch => exact distinct
  | ack split =>
      rw [split] at distinct
      exact distinct.sublist (List.sublist_append_right _ _)

end Conversation

namespace Mailbox

open Session Conversation

/-- A mailbox that knows the contact answers without a fault: nothing of the kind is due, or a
    record is taken from the conversation. -/
theorem asks_cases {m m' : Mailbox} {contact : ContactId} {c : Conversation} {budget : Nat}
    {answer : Except MailboxFault (Option Record)} (found : m.conversation? contact = some c)
    (asks : Filling.Asks source contact budget m answer m') :
    (answer = .ok none ∧ m' = m) ∨ ∃ record c', answer = .ok (some record) ∧
      Takes m.transports m.subscriptions c record c' ∧ m' = m.setConversation contact c' := by
  have kept := setConversation_of_conversation? found
  cases asks with
  | transportUpdate asked same =>
      simp only [source, Mailbox.takeTransportUpdate] at asked
      split at asked
      · obtain ⟨rfl, rfl⟩ := Prod.mk.inj asked
        exact .inl ⟨same, rfl⟩
      next update published =>
        rw [update_of_conversation? found] at asked
        obtain ⟨rfl, rfl⟩ := Prod.mk.inj asked
        simp only [Conversation.takeTransportUpdate] at same ⊢
        split at same
        next due => exact .inr ⟨_, _, same, .transportUpdate c published due, by rw [if_pos due]⟩
        next due => exact .inl ⟨same, by rw [if_neg due, kept]⟩
  | subscriptionUpdate asked same =>
      simp only [source, Mailbox.takeSubscriptionUpdate] at asked
      split at asked
      · obtain ⟨rfl, rfl⟩ := Prod.mk.inj asked
        exact .inl ⟨same, rfl⟩
      next update published =>
        rw [update_of_conversation? found] at asked
        obtain ⟨rfl, rfl⟩ := Prod.mk.inj asked
        simp only [Conversation.takeSubscriptionUpdate] at same ⊢
        split at same
        next due => exact .inr ⟨_, _, same, .subscriptionUpdate c published due, by rw [if_pos due]⟩
        next due => exact .inl ⟨same, by rw [if_neg due, kept]⟩
  | ack asked same =>
      simp only [source, Mailbox.takeAck, update_of_conversation? found] at asked
      obtain ⟨rfl, rfl⟩ := Prod.mk.inj asked
      simp only [Conversation.takeAck] at same ⊢
      split at same
      next nothing => exact .inl ⟨same, by rw [if_pos nothing, kept]⟩
      next something =>
        exact .inr ⟨_, _, same, .ack c (fitting_append_drop _ _ _ _ _).symm,
          by rw [if_neg something]⟩
  | batch asked same =>
      simp only [source, Mailbox.takeBatch, update_of_conversation? found] at asked
      obtain ⟨rfl, rfl⟩ := Prod.mk.inj asked
      simp only [Conversation.takeBatch_eq] at same ⊢
      split at same
      next nothing => exact .inl ⟨same, by rw [if_pos nothing, kept]⟩
      next something =>
        exact .inr ⟨_, _, same, .batch c (fitting_append_drop _ _ _ _ _).symm,
          by rw [if_neg something]⟩

variable {δ : Type} {sink : Sink δ} {f f' : Filling Mailbox δ} {contact : ContactId}
  {c : Conversation}

/-- A move of a filling leaves the conversation as it was, up to marks, or writes a record that was
    taken from it. -/
theorem move_cases (found : f.mailbox.conversation? contact = some c) (distinct : c.acksOwed.Nodup)
    (move : Filling.Move source sink contact f f') :
    (∃ c', f' = { f with mailbox := f.mailbox.setConversation contact c' } ∧
        Kept f.mailbox.transports f.mailbox.subscriptions c c') ∨
      ∃ record c' frames, Takes f.mailbox.transports f.mailbox.subscriptions c record c' ∧
        f.frames.write sink record.encode false = (.ok (), frames) ∧
        f' = { mailbox := f.mailbox.setConversation contact c', frames,
               taken := f.taken ++ [record] } := by
  cases move with
  | idle asked =>
      rcases asks_cases found asked with ⟨-, rfl⟩ | ⟨record, c', same, -, -⟩
      · exact .inl ⟨c, by rw [setConversation_of_conversation? found], .refl c⟩
      · cases same
  | wrote asked fits written =>
      rcases asks_cases found asked with ⟨none, -⟩ | ⟨record, c', same, takes, rfl⟩
      · cases none
      · obtain rfl := Option.some.inj (Except.ok.inj same)
        exact .inr ⟨_, c', _, takes, written, rfl⟩
  | gaveBack asked large restored =>
      rcases asks_cases found asked with ⟨none, -⟩ | ⟨record, c', same, takes, rfl⟩
      · cases none
      · obtain rfl := Option.some.inj (Except.ok.inj same)
        rw [restore_of_conversation? (conversation?_setConversation_self _ _ c')] at restored
        obtain ⟨-, rfl⟩ := Prod.mk.inj restored
        have undone : Kept f.mailbox.transports f.mailbox.subscriptions c (c'.restoreAll [_]) :=
          takes.restore distinct
        exact .inl ⟨_, by rw [setConversation_setConversation], undone⟩

/-- A mailbox answers and takes back for a contact that it knows, so only writing can fail. -/
theorem fails_cases {fault : SessionFault} (found : f.mailbox.conversation? contact = some c)
    (fails : Filling.Fails source sink contact f fault f') :
    ∃ record c' frames, Takes f.mailbox.transports f.mailbox.subscriptions c record c' ∧
      f' = { mailbox := f.mailbox.setConversation contact c', frames,
             taken := f.taken ++ [record] } := by
  cases fails with
  | refused asked =>
      rcases asks_cases found asked with ⟨none, -⟩ | ⟨record, c', same, -, -⟩
      · cases none
      · cases same
  | notRestored asked large restored =>
      rcases asks_cases found asked with ⟨none, -⟩ | ⟨record, c', same, -, rfl⟩
      · cases none
      · rw [restore_of_conversation? (conversation?_setConversation_self _ _ c')] at restored
        cases restored
  | notWritten asked failed =>
      rcases asks_cases found asked with ⟨none, -⟩ | ⟨record, c', same, takes, rfl⟩
      · cases none
      · obtain rfl := Option.some.inj (Except.ok.inj same)
        exact ⟨_, c', _, takes, rfl⟩

end Mailbox

end Courier
