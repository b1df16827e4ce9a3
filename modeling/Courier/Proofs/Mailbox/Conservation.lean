import Courier.Proofs.Mailbox.Introduction
import Courier.Proofs.Mailbox.Taking
import Mathlib.Data.Multiset.Bind
import Mathlib.Logic.Relation
import Mathlib.Tactic.Abel

/-! # Where the copies of a message are

A message that was queued waits, stands in an outstanding batch, or stood in a
batch that an acknowledgement cleared. Operations move copies between these
places in any order, also while connections hold batches that they have taken,
and make no new ones. There is one exception: a batch that is given back when it
is not outstanding any more, because it was queued again or cleared meanwhile,
adds its messages to the queue a second time. So what was given back too late is
exactly what there is too much.
-/

namespace Courier

/-- The messages of all these batches. -/
def Batch.messagesOf (batches : Multiset Batch) : Multiset Bytes :=
  batches.bind fun batch => (batch.messages : Multiset Bytes)

@[simp] theorem Batch.messagesOf_add (batches more : Multiset Batch) :
    messagesOf (batches + more) = messagesOf batches + messagesOf more :=
  Multiset.add_bind ..

namespace Conversation

/-- The messages in outstanding batches. -/
def outstandingMessages (c : Conversation) : List Bytes :=
  c.outstanding.flatMap (·.2.messages)

/-- The copies of messages that wait or are outstanding. -/
def copies (c : Conversation) : Multiset Bytes :=
  c.queued + c.outstandingMessages

/-- The messages that a record brings back although its batch is not outstanding. -/
def late (c : Conversation) : Record → Multiset Bytes
  | .batch batch => if batch.id ∈ c.outstanding.map (·.1) then 0 else batch.messages
  | .transportUpdate _ | .subscriptionUpdate _ | .ack _ => 0

/-- The messages that records bring back too late, the latest record first. -/
def lateAll (c : Conversation) : List Record → Multiset Bytes
  | [] => 0
  | record :: records => c.lateAll records + (c.restoreAll records).late record

end Conversation

namespace Mailbox

/-- The batches that a contact has not acknowledged. -/
def outstandingBatches (m : Mailbox) (contact : ContactId) : Multiset Batch :=
  (m.conversation? contact).elim 0 fun c => c.outstanding.map (·.2)

/-- The messages that records would bring back to a contact too late. -/
def late (m : Mailbox) (contact : ContactId) (records : List Record) : Multiset Bytes :=
  (m.conversation? contact).elim 0 (·.lateAll records)

/-- Whether an operation cannot touch what is queued for a contact or outstanding. -/
def Operation.spares (contact : ContactId) : Operation → Bool
  | addContact other .. | removeContact other | queue other _ | requeue other
  | takeBatch other _ | restore other _ | receive other (.ack _) => other ≠ contact
  | rotate _ | publishTransports _ | publishSubscriptions _ | context _ | takeTransportUpdate _
  | takeSubscriptionUpdate _ | takeAck .. | receive _ (.transportUpdate _)
  | receive _ (.subscriptionUpdate _) | receive _ (.batch _) => true

end Mailbox

/-- A mailbox, and the account of the messages for one contact. -/
structure Ledger where
  mailbox : Mailbox
  /-- Messages queued so far. -/
  queued : Multiset Bytes := 0
  /-- Batches formed so far. -/
  formed : Multiset Batch := 0
  /-- Batches that connections have taken and may give back, each once. -/
  inHand : Multiset Batch := 0
  /-- Batches cleared by acknowledgements. -/
  cleared : Multiset Batch := 0
  /-- Messages of batches that were given back when they were not outstanding. -/
  late : Multiset Bytes := 0

namespace Ledger

variable (contact : ContactId)

/-- The contact was just added. -/
def Begins (l : Ledger) : Prop :=
  ∃ (before m : Mailbox) (root : Secret) (role : Role) (transports : List TransportIndex),
    before.addContact contact root role transports = (.ok (), m) ∧ l = { mailbox := m }

inductive Step : Ledger → Ledger → Prop where
  | queue {l : Ledger} {message : Bytes} {m : Mailbox}
      (queued : l.mailbox.queue contact message = (.ok (), m)) :
      Step l { l with mailbox := m, queued := l.queued + {message} }
  | takeBatch {l : Ledger} {limit : Nat} {batch : Batch} {m : Mailbox}
      (taken : l.mailbox.takeBatch contact limit = (.ok (some batch), m)) :
      Step l { l with
        mailbox := m, formed := batch ::ₘ l.formed, inHand := batch ::ₘ l.inHand }
  | giveBack {l : Ledger} {records : List Record} {m : Mailbox}
      (inHand : Record.batches records ≤ l.inHand)
      (restored : l.mailbox.restore contact records = (.ok (), m)) :
      Step l { l with
        mailbox := m
        inHand := l.inHand - Record.batches records
        late := l.late + l.mailbox.late contact records }
  | requeue {l : Ledger} {count : Nat} {m : Mailbox}
      (requeued : l.mailbox.requeue contact = (.ok count, m)) : Step l { l with mailbox := m }
  | acknowledge {l : Ledger} {ack : Ack} {m : Mailbox}
      (received : l.mailbox.receive contact (.ack ack) = (.ok (), m)) :
      Step l { l with
        mailbox := m
        cleared := l.cleared +
          (l.mailbox.outstandingBatches contact - m.outstandingBatches contact) }
  | besides {l : Ledger} (operation : Mailbox.Operation)
      (spares : operation.spares contact = true) :
      Step l { l with mailbox := operation.apply l.mailbox }

/-- Any number of steps. -/
abbrev Run : Ledger → Ledger → Prop :=
  Relation.ReflTransGen (Step contact)

/-- Batches of one name are one batch. -/
def Named (l : Ledger) : Prop :=
  ∀ batch ∈ l.formed, ∀ other ∈ l.formed, batch.id = other.id → batch = other

end Ledger

/-! ## Giving back -/

namespace Conversation

variable {c : Conversation}

theorem withoutLast_of_notMem {id : BatchId} {batches : List (BatchId × Batch)}
    (absent : id ∉ batches.map (·.1)) : withoutLast id batches = batches := by
  have none : ∀ entry ∈ batches.reverse, ¬ (decide (entry.1 = id)) = true := by
    intro entry member same
    refine absent ?_
    rw [← of_decide_eq_true same]
    exact List.mem_map_of_mem (List.mem_reverse.mp member)
  rw [withoutLast, List.eraseP_of_forall_not none, List.reverse_reverse]

theorem perm_withoutLast {id : BatchId} {batch : Batch} {batches : List (BatchId × Batch)}
    (here : id ∈ batches.map (·.1)) (named : ∀ entry ∈ batches, entry.1 = id → entry.2 = batch) :
    batches.Perm ((id, batch) :: withoutLast id batches) := by
  obtain ⟨entry, member, same⟩ := List.mem_map.mp here
  obtain ⟨last, before, after, -, found, split, erased⟩ :=
    List.exists_of_eraseP (p := fun entry => decide (entry.1 = id)) (List.mem_reverse.mpr member)
      (by simpa using same)
  have last_mem : last ∈ batches.reverse := by simp [split]
  have last_id : last.1 = id := of_decide_eq_true found
  have last_eq : last = (id, batch) :=
    Prod.ext last_id (named last (List.mem_reverse.mp last_mem) last_id)
  have reversed : (withoutLast id batches).Perm (before ++ after) := by
    rw [withoutLast, erased]
    exact List.reverse_perm _
  calc batches
    _ |>.Perm batches.reverse := (List.reverse_perm batches).symm
    _ |>.Perm (last :: (before ++ after)) := by
      rw [split]
      exact List.perm_middle
    _ |>.Perm ((id, batch) :: withoutLast id batches) := by
      rw [last_eq]
      exact reversed.symm.cons _

theorem outstanding_restore_sublist (record : Record) (c : Conversation) :
    (c.restore record).outstanding.Sublist c.outstanding := by
  cases record with
  | transportUpdate => rw [restore_transportUpdate]
  | subscriptionUpdate => rw [restore_subscriptionUpdate]
  | ack => exact .refl _
  | batch batch =>
      simp only [restore, withoutLast]
      have erased := (List.eraseP_sublist (p := fun entry : BatchId × Batch =>
        decide (entry.1 = batch.id)) (l := c.outstanding.reverse)).reverse
      rwa [List.reverse_reverse] at erased

theorem outstanding_restoreAll_sublist (records : List Record) (c : Conversation) :
    (c.restoreAll records).outstanding.Sublist c.outstanding := by
  induction records with
  | nil => exact .refl _
  | cons record records ih => exact (outstanding_restore_sublist record _).trans ih

/-- A batch goes from the outstanding ones back to the queue, and one that is not among them only
    adds to the queue. -/
theorem copies_restore {record : Record}
    (named : ∀ batch ∈ Record.batches [record], ∀ entry ∈ c.outstanding, entry.1 = batch.id →
      entry.2 = batch) : (c.restore record).copies = c.copies + c.late record := by
  cases record with
  | transportUpdate | subscriptionUpdate => simp [late, copies, outstandingMessages]
  | ack => simp [restore, late, copies, outstandingMessages]
  | batch batch =>
      have its := named batch (by simp [Record.batches, Record.batch?])
      simp only [copies, outstandingMessages, restore, late, ← Multiset.coe_add]
      by_cases here : batch.id ∈ c.outstanding.map (·.1)
      · -- the messages go back from an outstanding batch that is theirs
        have moved : (c.outstanding.flatMap (·.2.messages) : Multiset Bytes) =
            batch.messages + (withoutLast batch.id c.outstanding).flatMap (·.2.messages) :=
          Multiset.coe_eq_coe.mpr ((perm_withoutLast here its).flatMap_right _)
        rw [if_pos here, moved]
        abel
      · rw [if_neg here, withoutLast_of_notMem here]
        abel

theorem copies_restoreAll {records : List Record}
    (named : ∀ batch ∈ Record.batches records, ∀ entry ∈ c.outstanding, entry.1 = batch.id →
      entry.2 = batch) : (c.restoreAll records).copies = c.copies + c.lateAll records := by
  induction records with
  | nil => simp [restoreAll, lateAll]
  | cons record records ih =>
      have split : Record.batches (record :: records) =
          Record.batches [record] ++ Record.batches records :=
        Record.batches_append [record] records
      rw [split] at named
      have first : ∀ batch ∈ Record.batches [record],
          ∀ entry ∈ (c.restoreAll records).outstanding, entry.1 = batch.id → entry.2 = batch := by
        intro batch member entry later
        have held := (outstanding_restoreAll_sublist records c).subset later
        exact named batch (List.mem_append_left _ member) entry held
      have rest := ih fun batch member => named batch (List.mem_append_right _ member)
      calc (c.restoreAll (record :: records)).copies
        _ = (c.restoreAll records).copies + (c.restoreAll records).late record :=
          copies_restore first
        _ = c.copies + (c.lateAll records + (c.restoreAll records).late record) := by
          rw [rest, add_assoc]

theorem queued_receive (record : Record) (c : Conversation) :
    (c.receive record).queued = c.queued := by
  cases record with
  | ack => rfl
  | transportUpdate | subscriptionUpdate | batch => simp

end Conversation

namespace Mailbox

/-! ## Operations that leave messages alone -/

variable {m : Mailbox} {contact : ContactId} {c : Conversation}

theorem Operation.Changes.spared {operation : Operation} {c' : Conversation}
    (changes : operation.Changes contact c c') (spares : operation.spares contact = true) :
    c'.queued = c.queued ∧ c'.outstanding = c.outstanding := by
  cases changes with
  | queue | requeue | takeBatch | restore => exact absurd rfl (of_decide_eq_true spares)
  | useStream => exact ⟨rfl, rfl⟩
  | rotate | takeTransportUpdate | takeSubscriptionUpdate | takeAck => simp
  | receive _ record =>
      cases record with
      | ack => exact absurd rfl (of_decide_eq_true spares)
      | transportUpdate | subscriptionUpdate | batch => simp

theorem spared_of_spares {operation : Operation} (spares : operation.spares contact = true)
    (found : m.conversation? contact = some c) :
    ∃ c', (operation.apply m).conversation? contact = some c' ∧ c'.queued = c.queued ∧
      c'.outstanding = c.outstanding := by
  rcases operation.exists_of_known found with ⟨c', after, rfl | changes⟩ | rfl | ⟨_, _, _, rfl⟩
  · exact ⟨c', after, rfl, rfl⟩
  · exact ⟨c', after, changes.spared spares⟩
  · exact absurd rfl (of_decide_eq_true spares)
  · exact absurd rfl (of_decide_eq_true spares)

end Mailbox

/-! ## The account of a contact -/

namespace Conversation

theorem copies_queue (c : Conversation) (message : Bytes) :
    { c with queued := c.queued ++ [message] }.copies = c.copies + {message} := by
  simp only [copies, outstandingMessages, ← Multiset.coe_add, Multiset.coe_singleton]
  abel

theorem copies_requeue (c : Conversation) : c.requeue.copies = c.copies := by
  simp only [copies, outstandingMessages, requeue, List.flatMap_nil, Multiset.coe_nil, add_zero,
    ← Multiset.coe_add]
  exact add_comm _ _

/-- A batch that is taken goes from the queue to the outstanding ones. -/
theorem Takes.copies {transports : Option TransportUpdate}
    {subscriptions : Option SubscriptionUpdate} {c c' : Conversation} {batch : Batch}
    (takes : Takes transports subscriptions c (.batch batch) c') :
    c'.outstanding = c.outstanding ++ [(batch.id, batch)] ∧ c'.copies = c.copies := by
  cases takes with
  | batch split =>
      refine ⟨rfl, ?_⟩
      simp only [Conversation.copies, outstandingMessages, split, List.flatMap_append,
        List.flatMap_singleton, ← Multiset.coe_add]
      abel

theorem coe_outstandingMessages (c : Conversation) :
    (c.outstandingMessages : Multiset Bytes) = Batch.messagesOf (c.outstanding.map (·.2)) := by
  rw [outstandingMessages, Batch.messagesOf, Multiset.coe_bind, List.flatMap_map]

/-- Batches that leave the outstanding ones take their messages with them. -/
theorem copies_of_sublist {c c' : Conversation} (queued : c'.queued = c.queued)
    (cleared : c'.outstanding.Sublist c.outstanding) :
    c'.copies + Batch.messagesOf (c.outstanding.map (·.2) - c'.outstanding.map (·.2)) =
      c.copies := by
  have fewer : (c'.outstanding.map (·.2) : Multiset Batch) ≤ c.outstanding.map (·.2) :=
    Multiset.coe_le.mpr (cleared.map _).subperm
  rw [copies, copies, coe_outstandingMessages, coe_outstandingMessages, queued, add_assoc,
    ← Batch.messagesOf_add, add_tsub_cancel_of_le fewer]

end Conversation

namespace Ledger

variable {contact : ContactId} {l l' : Ledger} {c : Conversation}

/-- What the conversation of the contact and the account have in common at all times. -/
structure Balanced (contact : ContactId) (l : Ledger) (c : Conversation) : Prop where
  known : l.mailbox.conversation? contact = some c
  outstanding : ∀ entry ∈ c.outstanding, entry.1 = entry.2.id ∧ entry.2 ∈ l.formed
  inHand : l.inHand ≤ l.formed
  balance : l.Named → c.copies + Batch.messagesOf l.cleared = l.queued + l.late

theorem Balanced.begins (begins : l.Begins contact) : ∃ c, l.Balanced contact c := by
  obtain ⟨before, m, root, role, transports, added, rfl⟩ := begins
  obtain ⟨lanes, known, -⟩ := (Mailbox.Introduced.added added).conversation
  refine ⟨_, known, ?_, le_refl 0, fun _ => rfl⟩
  intro entry member
  cases member

theorem Named.of_le (more : l.formed ≤ l'.formed) (named : l'.Named) : l.Named := by
  intro batch member other also
  exact named batch (Multiset.mem_of_le more member) other (Multiset.mem_of_le more also)

/-! One case for each step but the last. -/

theorem Balanced.queue {message : Bytes} {m : Mailbox} (balanced : l.Balanced contact c)
    (queued : l.mailbox.queue contact message = (.ok (), m)) :
    ∃ c', Balanced contact { l with mailbox := m, queued := l.queued + {message} } c' := by
  rw [Mailbox.queue, Mailbox.update_of_conversation? balanced.known] at queued
  obtain ⟨-, rfl⟩ := Prod.mk.inj queued
  refine ⟨_, Mailbox.conversation?_setConversation_self .., balanced.outstanding,
    balanced.inHand, ?_⟩
  intro named
  rw [Conversation.copies_queue, add_right_comm, balanced.balance named]
  exact add_right_comm _ _ _

theorem Balanced.takeBatch {limit : Nat} {batch : Batch} {m : Mailbox}
    (balanced : l.Balanced contact c)
    (taken : l.mailbox.takeBatch contact limit = (.ok (some batch), m)) :
    ∃ c', Balanced contact
      { l with mailbox := m, formed := batch ::ₘ l.formed, inHand := batch ::ₘ l.inHand } c' := by
  have asks : Session.Filling.Asks Mailbox.source contact limit l.mailbox
      (.ok (some (.batch batch))) m := .batch taken rfl
  rcases Mailbox.asks_cases balanced.known asks with ⟨none, -⟩ | ⟨record, c', same, takes, rfl⟩
  · cases none
  obtain rfl := Option.some.inj (Except.ok.inj same)
  obtain ⟨appended, kept⟩ := takes.copies
  refine ⟨c', Mailbox.conversation?_setConversation_self .., ?_, ?_, ?_⟩
  · intro entry member
    rw [appended] at member
    rcases List.mem_append.mp member with before | new
    · obtain ⟨name, formed⟩ := balanced.outstanding entry before
      exact ⟨name, Multiset.mem_cons_of_mem formed⟩
    · obtain rfl := List.mem_singleton.mp new
      exact ⟨rfl, Multiset.mem_cons_self _ _⟩
  · exact Multiset.cons_le_cons _ balanced.inHand
  · intro named
    rw [kept, balanced.balance (named.of_le (Multiset.le_cons_self _ _))]

theorem Balanced.giveBack {records : List Record} {m : Mailbox} (balanced : l.Balanced contact c)
    (taken : Record.batches records ≤ l.inHand)
    (restored : l.mailbox.restore contact records = (.ok (), m)) :
    ∃ c', Balanced contact
      { l with
        mailbox := m
        inHand := l.inHand - Record.batches records
        late := l.late + l.mailbox.late contact records } c' := by
  rw [Mailbox.restore, Mailbox.update_of_conversation? balanced.known] at restored
  obtain ⟨-, rfl⟩ := Prod.mk.inj restored
  refine ⟨_, Mailbox.conversation?_setConversation_self .., ?_, ?_, ?_⟩
  · intro entry member
    exact balanced.outstanding entry ((c.outstanding_restoreAll_sublist records).subset member)
  · exact (Multiset.sub_le_self _ _).trans balanced.inHand
  · intro named
    -- a batch in hand was formed, so an outstanding one of its name is the same batch
    have its : ∀ batch ∈ Record.batches records, ∀ entry ∈ c.outstanding,
        entry.1 = batch.id → entry.2 = batch := by
      intro batch member entry held same
      obtain ⟨name, formed⟩ := balanced.outstanding entry held
      have also := Multiset.mem_of_le (taken.trans balanced.inHand) (Multiset.mem_coe.mpr member)
      exact named entry.2 formed batch also (name.symm.trans same)
    have late : l.mailbox.late contact records = c.lateAll records := by
      rw [Mailbox.late, balanced.known]
      rfl
    rw [Conversation.copies_restoreAll its, late, ← add_assoc, ← balanced.balance named]
    abel

theorem Balanced.requeue {count : Nat} {m : Mailbox} (balanced : l.Balanced contact c)
    (requeued : l.mailbox.requeue contact = (.ok count, m)) :
    ∃ c', Balanced contact { l with mailbox := m } c' := by
  rw [Mailbox.requeue, Mailbox.update_of_conversation? balanced.known] at requeued
  obtain ⟨-, rfl⟩ := Prod.mk.inj requeued
  refine ⟨_, Mailbox.conversation?_setConversation_self .., ?_, balanced.inHand, ?_⟩
  · intro entry member
    cases member
  · intro named
    rw [Conversation.copies_requeue, balanced.balance named]

theorem Balanced.acknowledge {ack : Ack} {m : Mailbox} (balanced : l.Balanced contact c)
    (received : l.mailbox.receive contact (.ack ack) = (.ok (), m)) :
    ∃ c', Balanced contact
      { l with
        mailbox := m
        cleared := l.cleared +
          (l.mailbox.outstandingBatches contact - m.outstandingBatches contact) } c' := by
  rw [Mailbox.receive, Mailbox.update_of_conversation? balanced.known] at received
  obtain ⟨-, rfl⟩ := Prod.mk.inj received
  have after :=
    Mailbox.conversation?_setConversation_self l.mailbox contact (c.receive (.ack ack))
  have fewer : (c.receive (.ack ack)).outstanding.Sublist c.outstanding := List.filter_sublist
  refine ⟨_, after, fun entry member => balanced.outstanding entry (fewer.subset member),
    balanced.inHand, ?_⟩
  intro named
  have kept : (c.receive (.ack ack)).copies + _ = c.copies :=
    Conversation.copies_of_sublist rfl fewer
  rw [← balanced.balance named, ← kept]
  simp only [Mailbox.outstandingBatches, balanced.known, after, Option.elim_some,
    Batch.messagesOf, Multiset.add_bind]
  abel

theorem Balanced.step (balanced : l.Balanced contact c) (step : Step contact l l') :
    ∃ c', l'.Balanced contact c' := by
  cases step with
  | queue queued => exact balanced.queue queued
  | takeBatch taken => exact balanced.takeBatch taken
  | giveBack taken restored => exact balanced.giveBack taken restored
  | requeue requeued => exact balanced.requeue requeued
  | acknowledge received => exact balanced.acknowledge received
  | besides operation spares =>
      obtain ⟨c', after, queued, still⟩ := Mailbox.spared_of_spares spares balanced.known
      refine ⟨c', after, still ▸ balanced.outstanding, balanced.inHand, fun named => ?_⟩
      rw [← balanced.balance named]
      simp only [Conversation.copies, Conversation.outstandingMessages, queued, still]

theorem Balanced.run (balanced : l.Balanced contact c) (run : Run contact l l') :
    ∃ c', l'.Balanced contact c' := by
  induction run with
  | refl => exact ⟨c, balanced⟩
  | tail _ step ih =>
      obtain ⟨between, here⟩ := ih
      exact here.step step

/-- In whatever order messages are queued, taken by any number of connections, given back, queued
    again and acknowledged: as long as batches of one name are one batch, the copies of a message
    that wait, that are outstanding and that were cleared are as many as were queued, and as many
    more as were given back when their batch was not outstanding. -/
theorem count_copies {begun : Ledger} (begins : begun.Begins contact) (run : Run contact begun l)
    (named : l.Named) :
    ∃ c, l.mailbox.conversation? contact = some c ∧
      (∀ message, Multiset.count message c.queued + Multiset.count message c.outstandingMessages +
        (Batch.messagesOf l.cleared).count message =
          l.queued.count message + l.late.count message) ∧
      ((∀ message, Multiset.count message c.queued + Multiset.count message c.outstandingMessages +
        (Batch.messagesOf l.cleared).count message = l.queued.count message) ↔ l.late = 0) := by
  obtain ⟨c₀, balanced₀⟩ := Balanced.begins begins
  obtain ⟨c, balanced⟩ := balanced₀.run run
  have counts : ∀ message,
      Multiset.count message c.queued + Multiset.count message c.outstandingMessages +
      (Batch.messagesOf l.cleared).count message =
        l.queued.count message + l.late.count message := by
    intro message
    have counted := congrArg (Multiset.count message) (balanced.balance named)
    simpa only [Conversation.copies, Multiset.count_add, Multiset.coe_count] using counted
  refine ⟨c, balanced.known, counts, ?_, ?_⟩
  · intro conserved
    refine Multiset.ext.mpr fun message => ?_
    have here := (counts message).symm.trans (conserved message)
    rw [Multiset.count_zero]
    omega
  · intro none message
    rw [counts, none, Multiset.count_zero, Nat.add_zero]

/-- A connection takes the only message, the outstanding batches are queued again, and then the
    connection gives its batch back. -/
private theorem run_given_back_late :
    ∃ begun l c, begun.Begins ⟨2⟩ ∧ Run ⟨2⟩ begun l ∧ l.Named ∧
      l.mailbox.conversation? ⟨2⟩ = some c ∧ c.queued = [[109], [109]] ∧ c.outstanding = [] ∧
      l.queued = {[109]} ∧ l.cleared = 0 ∧ l.late = {[109]} := by
  let added := ({} : Mailbox).addContact ⟨2⟩ (.repeated 7) .alice []
  let queued := added.2.queue ⟨2⟩ [109]
  let taken := queued.2.takeBatch ⟨2⟩ 1000
  let requeued := taken.2.requeue ⟨2⟩
  let restored := requeued.2.restore ⟨2⟩ [.batch ⟨[[109]]⟩]
  have first : added = (.ok (), added.2) := eq_of_toOption (by decide +kernel)
  have second : queued = (.ok (), queued.2) := eq_of_toOption (by decide +kernel)
  have third : taken = (.ok (some ⟨[[109]]⟩), taken.2) := eq_of_toOption (by decide +kernel)
  have fourth : requeued = (.ok 1, requeued.2) := eq_of_toOption (by decide +kernel)
  have fifth : restored = (.ok (), restored.2) := eq_of_toOption (by decide +kernel)
  let begun : Ledger := { mailbox := added.2 }
  have begins : begun.Begins ⟨2⟩ := ⟨_, _, _, _, _, first, rfl⟩
  have inHand : (Record.batches [.batch ⟨[[109]]⟩] : Multiset Batch) ≤ {⟨[[109]]⟩} := le_refl _
  have run := (((Relation.ReflTransGen.single (Step.queue (l := begun) second)).tail
    (.takeBatch third)).tail (.requeue fourth)).tail (.giveBack inHand fifth)
  refine ⟨begun, _, restored.2.conversation? ⟨2⟩ |>.get (by decide +kernel), begins, run, ?_,
    (Option.some_get _).symm, by decide +kernel, by decide +kernel, rfl, rfl, by decide +kernel⟩
  intro batch member other also _
  rw [Multiset.mem_singleton.mp member, Multiset.mem_singleton.mp also]

/-- A batch that is given back after it was queued again. -/
theorem count_copies_given_back_late :
    ∃ begun l c, begun.Begins ⟨2⟩ ∧ Run ⟨2⟩ begun l ∧ l.Named ∧
      l.mailbox.conversation? ⟨2⟩ = some c ∧
      Multiset.count ([109] : Bytes) c.queued +
        Multiset.count ([109] : Bytes) c.outstandingMessages +
        (Batch.messagesOf l.cleared).count ([109] : Bytes) = 1 + 1 := by
  obtain ⟨begun, l, c, begins, run, named, known, -, -, once, -, late⟩ := run_given_back_late
  obtain ⟨c', known', counts, -⟩ := count_copies begins run named
  refine ⟨begun, l, c', begins, run, named, known', ?_⟩
  rw [counts, once, late]
  rfl

/-- Giving back late makes a second copy of a message. -/
theorem not_forall_conserved :
    ¬ ∀ begun l, begun.Begins ⟨2⟩ → Run ⟨2⟩ begun l → ∀ c, l.mailbox.conversation? ⟨2⟩ = some c →
      ∀ message, Multiset.count message c.queued + Multiset.count message c.outstandingMessages +
        (Batch.messagesOf l.cleared).count message = l.queued.count message := by
  obtain ⟨begun, l, c, begins, run, -, known, queued, outstanding, once, cleared, -⟩ :=
    run_given_back_late
  intro conserved
  have counted := conserved begun l begins run c known [109]
  rw [queued, Conversation.outstandingMessages, outstanding, once, cleared] at counted
  exact absurd counted (by decide)

end Ledger

end Courier
