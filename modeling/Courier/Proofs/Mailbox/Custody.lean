import Courier.Proofs.Mailbox.Introduction
import Courier.Proofs.Session.Completion
import Mathlib.Data.Multiset.AddSub
import Mathlib.Logic.Function.Basic
import Mathlib.Logic.Relation

/-! # Who has what was taken

Any number of connections take acknowledgements and updates for one contact, and
each may give back what it took, while batches arrive again and updates are
published in place of others. A name that was heard is owed, or in an
acknowledgement that some connection took since and has not given back. An
update counts as sent only while some connection that took an update of this
version has not given it back. Both follow from what a single step does, since
giving back looks at the state as it is then.
-/

namespace Courier

/-- The version of the transports that a record tells. -/
def Record.transportsVersion? : Record → Option UInt64
  | .transportUpdate update => some update.version
  | subscriptionUpdate _ | ack _ | batch _ => none

/-- The version of the subscriptions that a record tells. -/
def Record.subscriptionsVersion? : Record → Option UInt64
  | .subscriptionUpdate update => some update.version
  | transportUpdate _ | ack _ | batch _ => none

/-! ## What one record does -/

namespace Conversation

theorem mem_oweFirst {id : BatchId} {ids owed : List BatchId} :
    id ∈ oweFirst ids owed ↔ id ∈ ids ∨ id ∈ owed := by
  induction ids with
  | nil => simp [oweFirst]
  | cons first ids ih =>
      simp only [oweFirst] at ih
      simp only [oweFirst, List.foldr_cons]
      split
      next there =>
        rw [ih, List.mem_cons, or_assoc]
        refine (or_iff_right_of_imp ?_).symm
        rintro rfl
        exact ih.mp (List.contains_iff_mem.mp there)
      next => rw [List.mem_cons, ih, List.mem_cons, or_assoc]

variable {transports : Option TransportUpdate} {subscriptions : Option SubscriptionUpdate}
  {c c' : Conversation} {record : Record}

/-- What is taken leaves what is owed, and marks its version as sent. -/
theorem Takes.leaves (takes : Takes transports subscriptions c record c') :
    c.acksOwed = record.acked ++ c'.acksOwed ∧
      c'.transportsSent = record.transportsVersion?.or c.transportsSent ∧
      c'.subscriptionsSent = record.subscriptionsVersion?.or c.subscriptionsSent := by
  cases takes with
  | transportUpdate | subscriptionUpdate | batch => exact ⟨rfl, rfl, rfl⟩
  | ack split => exact ⟨split, rfl, rfl⟩

theorem mem_acksOwed_restore (record : Record) (c : Conversation) {id : BatchId} :
    id ∈ (c.restore record).acksOwed ↔ id ∈ record.acked ∨ id ∈ c.acksOwed := by
  cases record with
  | transportUpdate | subscriptionUpdate => simp [Record.acked]
  | ack => exact mem_oweFirst
  | batch => simp [restore, Record.acked]

/-- A mark that is still there after a record was given back is not of its version. -/
theorem marks_restore (record : Record) (c : Conversation) (version : UInt64) :
    ((c.restore record).transportsSent = some version →
      c.transportsSent = some version ∧ record.transportsVersion? ≠ some version) ∧
    ((c.restore record).subscriptionsSent = some version →
      c.subscriptionsSent = some version ∧ record.subscriptionsVersion? ≠ some version) := by
  have unmarked : none ≠ some version := (Option.some_ne_none version).symm
  cases record with
  | transportUpdate update =>
      simp only [restore]
      split
      next => exact ⟨fun still => absurd still unmarked, fun still => ⟨still, unmarked⟩⟩
      next other =>
        refine ⟨fun still => ⟨still, fun same => other ?_⟩, fun still => ⟨still, unmarked⟩⟩
        rw [still, ← same]
        rfl
  | subscriptionUpdate update =>
      simp only [restore]
      split
      next => exact ⟨fun still => ⟨still, unmarked⟩, fun still => absurd still unmarked⟩
      next other =>
        refine ⟨fun still => ⟨still, unmarked⟩, fun still => ⟨still, fun same => other ?_⟩⟩
        rw [still, ← same]
        rfl
  | ack | batch => exact ⟨fun still => ⟨still, unmarked⟩, fun still => ⟨still, unmarked⟩⟩

theorem mem_acksOwed_restoreAll (records : List Record) (c : Conversation) {id : BatchId} :
    id ∈ (c.restoreAll records).acksOwed ↔
      (∃ record ∈ records, id ∈ record.acked) ∨ id ∈ c.acksOwed := by
  induction records with
  | nil => simp [restoreAll]
  | cons record records ih =>
      rw [restoreAll, List.foldr_cons, ← restoreAll, mem_acksOwed_restore, ih, ← or_assoc,
        List.exists_mem_cons_iff]

/-- A mark that is still there after records were given back is not of the version of any. -/
theorem marks_restoreAll (records : List Record) (c : Conversation) {version : UInt64} :
    ((c.restoreAll records).transportsSent = some version → c.transportsSent = some version ∧
      ∀ record ∈ records, record.transportsVersion? ≠ some version) ∧
    ((c.restoreAll records).subscriptionsSent = some version → c.subscriptionsSent = some version ∧
      ∀ record ∈ records, record.subscriptionsVersion? ≠ some version) := by
  induction records with
  | nil => simp [restoreAll]
  | cons record records ih =>
      obtain ⟨transports, subscriptions⟩ :=
        (c.restoreAll records).marks_restore record version
      constructor
      · intro still
        obtain ⟨before, other⟩ := transports still
        obtain ⟨marked, others⟩ := ih.1 before
        exact ⟨marked, List.forall_mem_cons.mpr ⟨other, others⟩⟩
      · intro still
        obtain ⟨before, other⟩ := subscriptions still
        obtain ⟨marked, others⟩ := ih.2 before
        exact ⟨marked, List.forall_mem_cons.mpr ⟨other, others⟩⟩

/-- A batch that arrived is owed, with all that was. -/
theorem owed_receive_batch (batch : Batch) (c : Conversation) :
    (c.receive (.batch batch)).transportsSent = c.transportsSent ∧
      (c.receive (.batch batch)).subscriptionsSent = c.subscriptionsSent ∧
      ∀ id, id ∈ (c.receive (.batch batch)).acksOwed ↔ id = batch.id ∨ id ∈ c.acksOwed :=
  ⟨by simp, by simp, fun _ => c.mem_acksOwed_receive_batch batch⟩

end Conversation

namespace Mailbox

/-- Whether an operation cannot touch what is owed to a contact, or what counts as sent to it. -/
def Operation.leavesOwed (contact : ContactId) : Operation → Bool
  | addContact other .. | removeContact other | takeTransportUpdate other
  | takeSubscriptionUpdate other | takeAck other _ | restore other _
  | receive other (.batch _) => other ≠ contact
  | rotate _ | queue .. | publishTransports _ | publishSubscriptions _ | requeue _ | context _
  | takeBatch .. | receive _ (.transportUpdate _) | receive _ (.subscriptionUpdate _)
  | receive _ (.ack _) => true

variable {m : Mailbox} {contact : ContactId} {c : Conversation}

theorem Operation.Changes.owed {operation : Operation} {c' : Conversation}
    (changes : operation.Changes contact c c') (leaves : operation.leavesOwed contact = true) :
    c'.acksOwed = c.acksOwed ∧ c'.transportsSent = c.transportsSent ∧
      c'.subscriptionsSent = c.subscriptionsSent := by
  cases changes with
  | takeTransportUpdate | takeSubscriptionUpdate | takeAck | restore =>
      exact absurd rfl (of_decide_eq_true leaves)
  | queue | requeue | useStream => exact ⟨rfl, rfl, rfl⟩
  | rotate | takeBatch => simp
  | receive _ record =>
      cases record with
      | batch => exact absurd rfl (of_decide_eq_true leaves)
      | ack => exact ⟨rfl, rfl, rfl⟩
      | transportUpdate | subscriptionUpdate => simp

theorem owed_of_leavesOwed {operation : Operation} (leaves : operation.leavesOwed contact = true)
    (found : m.conversation? contact = some c) :
    ∃ c', (operation.apply m).conversation? contact = some c' ∧ c'.acksOwed = c.acksOwed ∧
      c'.transportsSent = c.transportsSent ∧ c'.subscriptionsSent = c.subscriptionsSent := by
  rcases operation.exists_of_known found with ⟨c', after, rfl | changes⟩ | rfl | ⟨_, _, _, rfl⟩
  · exact ⟨c', after, rfl, rfl, rfl⟩
  · exact ⟨c', after, changes.owed leaves⟩
  · exact absurd rfl (of_decide_eq_true leaves)
  · exact absurd rfl (of_decide_eq_true leaves)

end Mailbox

/-! ## Connections that overlap -/

/-- A record that a connection took at some moment. -/
structure Holding where
  connection : Nat
  moment : Nat
  record : Record
  deriving DecidableEq

/-- A mailbox, and what connections to one contact have taken and not given back. -/
structure Custody where
  mailbox : Mailbox
  /-- Counts the steps. -/
  now : Nat := 0
  holdings : Multiset Holding := 0
  /-- When a batch of this name last arrived. -/
  heard : BatchId → Option Nat := fun _ => none

namespace Custody

variable (contact : ContactId)

/-- The contact was just added. -/
def Begins (t : Custody) : Prop :=
  ∃ (before m : Mailbox) (root : Secret) (role : Role) (transports : List TransportIndex),
    before.addContact contact root role transports = (.ok (), m) ∧ t = { mailbox := m }

/-- One step of some connection, or of anything else that happens to the mailbox. -/
inductive Step : Custody → Custody → Prop where
  | idle {t : Custody} {limit : Nat} {m : Mailbox}
      (asked : Session.Filling.Asks Mailbox.source contact limit t.mailbox (.ok none) m) :
      Step t { t with mailbox := m, now := t.now + 1 }
  | take {t : Custody} (connection : Nat) {limit : Nat} {record : Record} {m : Mailbox}
      (asked : Session.Filling.Asks Mailbox.source contact limit t.mailbox (.ok (some record)) m) :
      Step t { t with
        mailbox := m, now := t.now + 1, holdings := ⟨connection, t.now, record⟩ ::ₘ t.holdings }
  | giveBack {t : Custody} (connection : Nat) (given : List Holding) {m : Mailbox}
      (its : ∀ held ∈ given, held.connection = connection)
      (held : (given : Multiset Holding) ≤ t.holdings)
      (restored : t.mailbox.restore contact (given.map (·.record)) = (.ok (), m)) :
      Step t { t with mailbox := m, now := t.now + 1, holdings := t.holdings - given }
  | hear {t : Custody} {batch : Batch} {m : Mailbox}
      (received : t.mailbox.receive contact (.batch batch) = (.ok (), m)) :
      Step t { t with
        mailbox := m, now := t.now + 1, heard := Function.update t.heard batch.id (some t.now) }
  | besides {t : Custody} (operation : Mailbox.Operation)
      (leaves : operation.leavesOwed contact = true) :
      Step t { t with mailbox := operation.apply t.mailbox, now := t.now + 1 }

/-- Any number of steps. -/
abbrev Run : Custody → Custody → Prop :=
  Relation.ReflTransGen (Step contact)

/-- What holds between the conversation with the contact and what was taken. -/
structure Sound (t : Custody) (c : Conversation) : Prop where
  known : t.mailbox.conversation? contact = some c
  distinct : c.acksOwed.Nodup
  past : ∀ id moment, t.heard id = some moment → moment < t.now
  answered : ∀ id moment, t.heard id = some moment →
    id ∈ c.acksOwed ∨ ∃ held ∈ t.holdings, moment < held.moment ∧ id ∈ held.record.acked
  transports : ∀ version, c.transportsSent = some version →
    ∃ held ∈ t.holdings, held.record.transportsVersion? = some version
  subscriptions : ∀ version, c.subscriptionsSent = some version →
    ∃ held ∈ t.holdings, held.record.subscriptionsVersion? = some version

variable {contact} {t t' : Custody} {c : Conversation}

theorem Sound.begins (begins : t.Begins contact) : ∃ c, t.Sound contact c := by
  obtain ⟨before, m, root, role, transports, added, rfl⟩ := begins
  obtain ⟨lanes, known, -⟩ := (Mailbox.Introduced.added added).conversation
  refine ⟨_, known, List.nodup_nil, ?_, ?_, ?_, ?_⟩
  all_goals
    intros
    contradiction

/-- What is not given back is held still. -/
private theorem mem_sub_of_not {holdings : Multiset Holding} {given : List Holding} {held : Holding}
    (member : held ∈ holdings) (kept : held ∉ given) : held ∈ holdings - given := by
  have none : Multiset.count held (given : Multiset Holding) = 0 :=
    Multiset.count_eq_zero.mpr fun among => kept (Multiset.mem_coe.mp among)
  rw [Multiset.mem_sub, none]
  exact Multiset.count_pos.mpr member

/-- A version that no record given back tells is held still. -/
private theorem held_of_restored {holdings : Multiset Holding} {given : List Holding}
    {version : UInt64} {version? : Record → Option UInt64}
    (marked : ∃ held ∈ holdings, version? held.record = some version)
    (others : ∀ record ∈ given.map (·.record), version? record ≠ some version) :
    ∃ held ∈ holdings - given, version? held.record = some version := by
  obtain ⟨held, member, same⟩ := marked
  refine ⟨held, mem_sub_of_not member fun back => ?_, same⟩
  exact others held.record (List.mem_map_of_mem back) same

/-! One lemma for each thing that happens. -/

variable {m : Mailbox}

private theorem Sound.later (sound : t.Sound contact c) :
    ∀ id moment, t.heard id = some moment → moment < t.now + 1 :=
  fun id moment heard => Nat.lt_succ_of_lt (sound.past id moment heard)

/-- What is taken joins what is held, so every mark is backed by a holding: the new one or, where
    the mark is an old one, by that of before. -/
theorem Sound.take (sound : t.Sound contact c) (connection : Nat) {limit : Nat} {record : Record}
    (asked : Session.Filling.Asks Mailbox.source contact limit t.mailbox (.ok (some record)) m) :
    ∃ c', Sound contact { t with
      mailbox := m, now := t.now + 1, holdings := ⟨connection, t.now, record⟩ ::ₘ t.holdings } c' := by
  rcases Mailbox.asks_cases sound.known asked with ⟨none, -⟩ | ⟨other, c', same, takes, rfl⟩
  · cases none
  obtain rfl := Option.some.inj (Except.ok.inj same)
  obtain ⟨owed, transportsSent, subscriptionsSent⟩ := takes.leaves
  have marked : ∀ {version? : Record → Option UInt64} {mark : Option UInt64} {version : UInt64},
      (∀ version, mark = some version →
        ∃ held ∈ t.holdings, version? held.record = some version) →
      (version? record).or mark = some version →
      ∃ held ∈ (⟨connection, t.now, record⟩ : Holding) ::ₘ t.holdings,
        version? held.record = some version := by
    intro version? mark version before now
    rcases Option.or_eq_some_iff.mp now with its | ⟨-, old⟩
    · exact ⟨_, Multiset.mem_cons_self _ _, its⟩
    · obtain ⟨held, member, same⟩ := before version old
      exact ⟨held, Multiset.mem_cons_of_mem member, same⟩
  refine ⟨c', Mailbox.conversation?_setConversation_self .., takes.nodup_acksOwed sound.distinct,
    sound.later, ?_, ?_, ?_⟩
  · intro id moment heard
    rcases sound.answered id moment heard with here | ⟨held, member, since, names⟩
    · rw [owed] at here
      rcases List.mem_append.mp here with taken | still
      · exact .inr ⟨_, Multiset.mem_cons_self _ _, sound.past id moment heard, taken⟩
      · exact .inl still
    · exact .inr ⟨held, Multiset.mem_cons_of_mem member, since, names⟩
  · exact fun version now => marked sound.transports (transportsSent.symm.trans now)
  · exact fun version now => marked sound.subscriptions (subscriptionsSent.symm.trans now)

/-- Giving back owes the names again, and takes back the marks that were set for these records. -/
theorem Sound.giveBack (sound : t.Sound contact c) {given : List Holding}
    (restored : t.mailbox.restore contact (given.map (·.record)) = (.ok (), m)) :
    ∃ c', Sound contact
      { t with mailbox := m, now := t.now + 1, holdings := t.holdings - given } c' := by
  rw [Mailbox.restore, Mailbox.update_of_conversation? sound.known] at restored
  obtain ⟨-, rfl⟩ := Prod.mk.inj restored
  refine ⟨_, Mailbox.conversation?_setConversation_self ..,
    (Conversation.Change.restore c _).nodup_acksOwed sound.distinct, sound.later, ?_, ?_, ?_⟩
  · intro id moment heard
    rw [Conversation.mem_acksOwed_restoreAll]
    rcases sound.answered id moment heard with here | ⟨held, member, since, names⟩
    · exact .inl (.inr here)
    · by_cases back : held ∈ given
      · exact .inl (.inl ⟨held.record, List.mem_map_of_mem back, names⟩)
      · exact .inr ⟨held, mem_sub_of_not member back, since, names⟩
  · intro version still
    obtain ⟨marked, others⟩ := (c.marks_restoreAll _).1 still
    exact held_of_restored (sound.transports version marked) others
  · intro version still
    obtain ⟨marked, others⟩ := (c.marks_restoreAll _).2 still
    exact held_of_restored (sound.subscriptions version marked) others

/-- A batch that arrives, for the first time or again, is owed. -/
theorem Sound.hear (sound : t.Sound contact c) {batch : Batch}
    (received : t.mailbox.receive contact (.batch batch) = (.ok (), m)) :
    ∃ c', Sound contact { t with
      mailbox := m, now := t.now + 1,
      heard := Function.update t.heard batch.id (some t.now) } c' := by
  rw [Mailbox.receive, Mailbox.update_of_conversation? sound.known] at received
  obtain ⟨-, rfl⟩ := Prod.mk.inj received
  obtain ⟨transportsSent, subscriptionsSent, owed⟩ := c.owed_receive_batch batch
  have cases : ∀ id moment, Function.update t.heard batch.id (some t.now) id = some moment →
      id = batch.id ∧ moment = t.now ∨ t.heard id = some moment := by
    intro id moment heard
    by_cases same : id = batch.id
    · rw [same, Function.update_self] at heard
      exact .inl ⟨same, (Option.some.inj heard).symm⟩
    · rw [Function.update_of_ne same] at heard
      exact .inr heard
  refine ⟨_, Mailbox.conversation?_setConversation_self ..,
    (Conversation.Change.receive c _).nodup_acksOwed sound.distinct, ?_, ?_,
    fun version now => sound.transports version (transportsSent.symm.trans now),
    fun version now => sound.subscriptions version (subscriptionsSent.symm.trans now)⟩
  · intro id moment heard
    rcases cases id moment heard with ⟨-, rfl⟩ | before
    · exact Nat.lt_succ_self _
    · exact sound.later id moment before
  · intro id moment heard
    rw [owed]
    rcases cases id moment heard with ⟨same, -⟩ | before
    · exact .inl (.inl same)
    · exact (sound.answered id moment before).imp_left .inr

theorem Sound.besides (sound : t.Sound contact c) {operation : Mailbox.Operation}
    (leaves : operation.leavesOwed contact = true) :
    ∃ c', Sound contact
      { t with mailbox := operation.apply t.mailbox, now := t.now + 1 } c' := by
  obtain ⟨c', after, owed, transportsSent, subscriptionsSent⟩ :=
    Mailbox.owed_of_leavesOwed leaves sound.known
  exact ⟨c', after, owed ▸ sound.distinct, sound.later, owed ▸ sound.answered,
    fun version now => sound.transports version (transportsSent.symm.trans now),
    fun version now => sound.subscriptions version (subscriptionsSent.symm.trans now)⟩

theorem Sound.step (sound : t.Sound contact c) (step : Step contact t t') :
    ∃ c', t'.Sound contact c' := by
  cases step with
  | idle asked =>
      rcases Mailbox.asks_cases sound.known asked with ⟨-, rfl⟩ | ⟨record, c', same, -, -⟩
      · exact ⟨c, { sound with past := sound.later }⟩
      · cases same
  | take connection asked => exact sound.take connection asked
  | giveBack connection given its held restored => exact sound.giveBack restored
  | hear received => exact sound.hear received
  | besides operation leaves => exact sound.besides leaves

theorem Sound.run (sound : t.Sound contact c) (run : Run contact t t') :
    ∃ c', t'.Sound contact c' := by
  induction run with
  | refl => exact ⟨c, sound⟩
  | tail _ step ih =>
      obtain ⟨between, here⟩ := ih
      exact here.step step

/-- However connections overlap: no name is owed twice, and a name that was heard is owed or in an
    acknowledgement taken since and not given back. A version that counts as sent was taken by a
    connection that has not given it back, so once all updates of the published version and of newer
    ones are given back, the published update is offered. -/
theorem owed_and_due {begun : Custody} (begins : begun.Begins contact) (run : Run contact begun t) :
    ∃ c, t.mailbox.conversation? contact = some c ∧ c.acksOwed.Nodup ∧
      (∀ id moment, t.heard id = some moment →
        id ∈ c.acksOwed ∨ ∃ held ∈ t.holdings, moment < held.moment ∧ id ∈ held.record.acked) ∧
      (∀ version, c.transportsSent = some version →
        ∃ held ∈ t.holdings, held.record.transportsVersion? = some version) ∧
      (∀ version, c.subscriptionsSent = some version →
        ∃ held ∈ t.holdings, held.record.subscriptionsVersion? = some version) ∧
      (∀ update, t.mailbox.transports = some update →
        (∀ held ∈ t.holdings, ∀ version ∈ held.record.transportsVersion?,
          version < update.version) →
        (t.mailbox.takeTransportUpdate contact).1 = .ok (some update)) ∧
      (∀ update, t.mailbox.subscriptions = some update →
        (∀ held ∈ t.holdings, ∀ version ∈ held.record.subscriptionsVersion?,
          version < update.version) →
        (t.mailbox.takeSubscriptionUpdate contact).1 = .ok (some update)) := by
  obtain ⟨c₀, sound₀⟩ := Sound.begins begins
  obtain ⟨c, known, distinct, -, answered, transports, subscriptions⟩ := sound₀.run run
  -- a mark that all holdings are older than does not stand in the way
  have due : ∀ {version? : Record → Option UInt64} {mark : Option UInt64} {published : UInt64},
      (∀ version, mark = some version →
        ∃ held ∈ t.holdings, version? held.record = some version) →
      (∀ held ∈ t.holdings, ∀ version ∈ version? held.record, version < published) →
      Conversation.isNewer published mark = true := by
    intro version? mark published backed older
    cases mark with
    | none => rfl
    | some version =>
        obtain ⟨held, member, same⟩ := backed version rfl
        exact decide_eq_true (older held member version same)
  refine ⟨c, known, distinct, answered, transports, subscriptions, ?_, ?_⟩
  · intro update published older
    rw [Mailbox.fst_takeTransportUpdate, published, Option.elim_some,
      Mailbox.ask_of_conversation? known, if_pos (due transports older)]
  · intro update published older
    rw [Mailbox.fst_takeSubscriptionUpdate, published, Option.elim_some,
      Mailbox.ask_of_conversation? known, if_pos (due subscriptions older)]

/-- Two connections that both told transports, of two versions, give all back, and so an
    acknowledgement of a batch that arrived again meanwhile. -/
theorem owed_and_due_after_overlap :
    ∃ begun t c, begun.Begins ⟨2⟩ ∧ Run ⟨2⟩ begun t ∧ t.mailbox.conversation? ⟨2⟩ = some c ∧
      Batch.id ⟨[[109]]⟩ ∈ c.acksOwed ∧
      (t.mailbox.takeTransportUpdate ⟨2⟩).1 = .ok (some ⟨.empty, 6⟩) := by
  let added := ({} : Mailbox).addContact ⟨2⟩ (.repeated 7) .alice []
  let older := (added.2.publishTransports ⟨.empty, 5⟩).takeTransportUpdate ⟨2⟩
  let newer := (older.2.publishTransports ⟨.empty, 6⟩).takeTransportUpdate ⟨2⟩
  let heard := newer.2.receive ⟨2⟩ (.batch ⟨[[109]]⟩)
  let acked := heard.2.takeAck ⟨2⟩ 1000
  let again := acked.2.receive ⟨2⟩ (.batch ⟨[[109]]⟩)
  let ack : Record := .ack ⟨[Batch.id ⟨[[109]]⟩]⟩
  let olderBack := again.2.restore ⟨2⟩ [.transportUpdate ⟨.empty, 5⟩, ack]
  let newerBack := olderBack.2.restore ⟨2⟩ [.transportUpdate ⟨.empty, 6⟩]
  have first : added = (.ok (), added.2) := eq_of_toOption (by decide +kernel)
  have second : older = (.ok (some ⟨.empty, 5⟩), older.2) := eq_of_toOption (by decide +kernel)
  have third : newer = (.ok (some ⟨.empty, 6⟩), newer.2) := eq_of_toOption (by decide +kernel)
  have fourth : heard = (.ok (), heard.2) := eq_of_toOption (by decide +kernel)
  have fifth : acked = (.ok (some ⟨[Batch.id ⟨[[109]]⟩]⟩), acked.2) :=
    eq_of_toOption (by decide +kernel)
  have sixth : again = (.ok (), again.2) := eq_of_toOption (by decide +kernel)
  have seventh : olderBack = (.ok (), olderBack.2) := eq_of_toOption (by decide +kernel)
  have eighth : newerBack = (.ok (), newerBack.2) := eq_of_toOption (by decide +kernel)
  let begun : Custody := { mailbox := added.2 }
  have begins : begun.Begins ⟨2⟩ := ⟨_, _, _, _, _, first, rfl⟩
  have publish : Step ⟨2⟩ begun _ := .besides (.publishTransports ⟨.empty, 5⟩) rfl
  have olderAsked : Session.Filling.Asks Mailbox.source ⟨2⟩ 0
      (added.2.publishTransports ⟨.empty, 5⟩) (.ok (some (.transportUpdate ⟨.empty, 5⟩))) older.2 :=
    .transportUpdate second rfl
  have newerAsked : Session.Filling.Asks Mailbox.source ⟨2⟩ 0
      (older.2.publishTransports ⟨.empty, 6⟩) (.ok (some (.transportUpdate ⟨.empty, 6⟩))) newer.2 :=
    .transportUpdate third rfl
  have ackAsked : Session.Filling.Asks Mailbox.source ⟨2⟩ 1000 heard.2 (.ok (some ack)) acked.2 :=
    .ack fifth rfl
  have overlap := ((((((Relation.ReflTransGen.single publish).tail (.take 0 olderAsked)).tail
    (.besides (.publishTransports ⟨.empty, 6⟩) rfl)).tail (.take 1 newerAsked)).tail
    (.hear fourth)).tail (.take 0 ackAsked)).tail (.hear sixth)
  have run := (overlap.tail (.giveBack 0 [⟨0, 1, .transportUpdate ⟨.empty, 5⟩⟩, ⟨0, 5, ack⟩]
    (by decide) (by decide +kernel) seventh)).tail (.giveBack 1
    [⟨1, 3, .transportUpdate ⟨.empty, 6⟩⟩] (by decide) (by decide +kernel) eighth)
  obtain ⟨t, run, none, last, published⟩ : ∃ t, Run ⟨2⟩ begun t ∧ t.holdings = 0 ∧
      t.heard (Batch.id ⟨[[109]]⟩) = some 6 ∧ t.mailbox.transports = some ⟨.empty, 6⟩ :=
    ⟨_, run, by decide +kernel, by decide +kernel, by decide +kernel⟩
  obtain ⟨c, known, -, answered, -, -, offered, -⟩ := owed_and_due begins run
  rw [none] at answered offered
  refine ⟨begun, t, c, begins, run, known, ?_, offered _ published nofun⟩
  rcases answered _ _ last with owed | ⟨held, member, -⟩
  · exact owed
  · cases member

end Custody

end Courier
