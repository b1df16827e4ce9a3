import Courier.Proofs.Mailbox.Conservation
import Courier.Proofs.Session.Delivery

/-! # What has arrived

A conversation adds the messages of a batch to those received unless it has seen
the name of the batch before, and owes an acknowledgement by that name. So the
batches that were added account for all that was received, seen and is owed.
Receiving clears the outstanding batches whose names were acknowledged, and
leaves the rest of the sending side as it is.
-/

namespace Courier

theorem Batch.names_of_filterMap (records : List Record) :
    ∀ entry ∈ records.filterMap Record.batch?, entry.1 = entry.2.id := by
  intro entry member
  obtain ⟨record, -, same⟩ := List.mem_filterMap.mp member
  cases record with
  | transportUpdate | subscriptionUpdate | ack => cases same
  | batch sent =>
      obtain rfl := Option.some.inj same
      rfl

namespace Conversation

/-- The batches that have arrived, each under a name of its own, account for the messages received,
    for the names seen, and for the acknowledgements that are owed. -/
structure Accounts (c : Conversation) (arrived : List Batch) : Prop where
  received : c.received = arrived.flatMap (·.messages)
  distinct : (arrived.map Batch.id).Nodup
  seen_iff : ∀ id, id ∈ c.seen ↔ id ∈ arrived.map Batch.id
  owed : ∀ id ∈ c.acksOwed, id ∈ arrived.map Batch.id
  owedOnce : c.acksOwed.Nodup
  names : ∀ entry ∈ c.outstanding, entry.1 = entry.2.id

variable {c : Conversation} {arrived : List Batch}

theorem outstanding_receive (record : Record) (c : Conversation) :
    (c.receive record).outstanding =
      c.outstanding.filter fun entry => !record.acked.contains entry.1 := by
  cases record with
  | ack => rfl
  | transportUpdate | subscriptionUpdate | batch => simp [Record.acked]

theorem outstanding_receiveAll (records : List Record) (c : Conversation) :
    (c.receiveAll records).outstanding =
      c.outstanding.filter fun entry => !(records.flatMap Record.acked).contains entry.1 := by
  induction records generalizing c with
  | nil => simp [receiveAll]
  | cons record records ih =>
      have first : c.receiveAll (record :: records) = (c.receive record).receiveAll records := rfl
      rw [first, ih, outstanding_receive, List.filter_filter]
      refine List.filter_congr fun entry _ => ?_
      simp [Bool.and_comm]

/-- Nothing is outstanding any more once every batch was acknowledged. -/
theorem outstanding_acknowledged {records : List Record}
    (names : ∀ entry ∈ c.outstanding, entry.1 = entry.2.id)
    (acked : ∀ batch ∈ c.outstanding.map (·.2), batch.id ∈ records.flatMap Record.acked) :
    (c.receiveAll records).outstanding = [] := by
  rw [outstanding_receiveAll, List.filter_eq_nil_iff]
  intro entry member
  have its := acked entry.2 (List.mem_map_of_mem member)
  rw [← names entry member] at its
  simpa using its

theorem side_receive (record : Record) (c : Conversation) :
    (c.receive record).role = c.role ∧ (c.receive record).lanes = c.lanes := by
  cases record with
  | ack => exact ⟨rfl, rfl⟩
  | transportUpdate | subscriptionUpdate | batch => simp

theorem side_receiveAll (records : List Record) (c : Conversation) :
    (c.receiveAll records).role = c.role ∧ (c.receiveAll records).lanes = c.lanes := by
  induction records generalizing c with
  | nil => exact ⟨rfl, rfl⟩
  | cons record records ih =>
      obtain ⟨role, lanes⟩ := side_receive record c
      obtain ⟨roleAll, lanesAll⟩ := ih (c.receive record)
      exact ⟨roleAll.trans role, lanesAll.trans lanes⟩

theorem queued_receiveAll (records : List Record) (c : Conversation) :
    (c.receiveAll records).queued = c.queued := by
  induction records generalizing c with
  | nil => rfl
  | cons record records ih => exact (ih (c.receive record)).trans (queued_receive record c)

/-- A batch that was seen before is owed again, and adds nothing else. -/
theorem Accounts.receive_seen (accounts : c.Accounts arrived) {batch : Batch}
    (seen : batch.id ∈ c.seen) : (c.receive (.batch batch)).Accounts arrived := by
  constructor
  case received => simp [seen, accounts.received]
  case distinct => exact accounts.distinct
  case seen_iff => simp [seen, accounts.seen_iff]
  case owed =>
    intro id member
    rcases (c.mem_acksOwed_receive_batch batch).mp member with rfl | earlier
    · exact (accounts.seen_iff batch.id).mp seen
    · exact accounts.owed id earlier
  case owedOnce => exact (Change.receive c _).nodup_acksOwed accounts.owedOnce
  case names =>
    rw [receive_batch]
    exact accounts.names

/-- A batch of a new name has arrived now. -/
theorem Accounts.receive_new (accounts : c.Accounts arrived) {batch : Batch}
    (new : batch.id ∉ c.seen) : (c.receive (.batch batch)).Accounts (arrived ++ [batch]) := by
  constructor
  case received => simp [new, accounts.received]
  case distinct =>
    rw [List.map_append, List.map_singleton]
    exact accounts.distinct.append (List.nodup_singleton _)
      (List.disjoint_singleton.mpr (new ∘ (accounts.seen_iff batch.id).mpr))
  case seen_iff =>
    intro id
    simp [new, accounts.seen_iff, or_comm, eq_comm]
  case owed =>
    intro id member
    rw [List.map_append]
    rcases (c.mem_acksOwed_receive_batch batch).mp member with rfl | earlier
    · exact List.mem_append_right _ (List.mem_singleton_self _)
    · exact List.mem_append_left _ (accounts.owed id earlier)
  case owedOnce => exact (Change.receive c _).nodup_acksOwed accounts.owedOnce
  case names =>
    rw [receive_batch]
    exact accounts.names

/-- A batch whose name was seen before adds nothing, and any other one has arrived now. -/
theorem Accounts.receive (accounts : c.Accounts arrived) (record : Record) :
    ∃ more, (c.receive record).Accounts (arrived ++ more) ∧
      ∀ batch ∈ more, batch ∈ Record.batches [record] := by
  cases record with
  | transportUpdate | subscriptionUpdate =>
      refine ⟨[], ?_, by simp⟩
      simp only [receive_transportUpdate, receive_subscriptionUpdate, List.append_nil]
      exact { accounts with }
  | ack =>
      refine ⟨[], ?_, by simp⟩
      rw [List.append_nil]
      exact { accounts with
        names := fun entry member => accounts.names entry (List.mem_of_mem_filter member) }
  | batch batch =>
      by_cases seen : batch.id ∈ c.seen
      · exact ⟨[], by simpa using accounts.receive_seen seen, by simp⟩
      · exact ⟨[batch], accounts.receive_new seen, by simp [Record.batches, Record.batch?]⟩

theorem Accounts.receiveAll (accounts : c.Accounts arrived) (records : List Record) :
    ∃ more, (c.receiveAll records).Accounts (arrived ++ more) ∧
      ∀ batch ∈ more, batch ∈ Record.batches records := by
  induction records generalizing c arrived with
  | nil => exact ⟨[], by simpa [Conversation.receiveAll] using accounts, by simp⟩
  | cons record records ih =>
      obtain ⟨first, after, fromFirst⟩ := accounts.receive record
      obtain ⟨more, afterAll, fromRest⟩ := ih after
      refine ⟨first ++ more, ?_, fun batch member => ?_⟩
      · rw [← List.append_assoc]
        exact afterAll
      · rw [show record :: records = [record] ++ records from rfl, Record.batches_append]
        rcases List.mem_append.mp member with here | later
        · exact List.mem_append_left _ (fromFirst batch here)
        · exact List.mem_append_right _ (fromRest batch later)

end Conversation

end Courier
