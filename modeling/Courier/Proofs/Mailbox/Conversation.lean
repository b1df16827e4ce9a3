import Courier.Mailbox.Conversation

/-! # What changes in a conversation

Each operation on a conversation as one update of its fields, whatever the
operation decides on the way. All fields that an equation does not name are the
same before and after.
-/

namespace Courier

namespace Conversation

variable (c : Conversation)

/-! ## Starting and rotating -/

theorem start_eq_ok {root : Secret} {role : Role} {transports : List TransportIndex}
    {c : Conversation} (started : start root role transports = .ok c) :
    ∃ lanes, c = { role, lanes } := by
  simp only [start] at started
  cases lanes : transports.mapM (m := Except CryptoFault) _ with
  | error fault =>
      rw [lanes] at started
      cases started
  | ok lanes' =>
      rw [lanes] at started
      exact ⟨_, (Except.ok.inj started).symm⟩

/-- The period counts on only if all lanes were moved. -/
@[simp] theorem snd_rotate :
    c.rotate.2 =
      { c with
        lanes := (rotateLanes (c.period + 1) c.lanes.entries c.lanes).2
        period := if (rotateLanes (c.period + 1) c.lanes.entries c.lanes).1.isOk then
          c.period + 1 else c.period } := by
  simp only [rotate]
  split <;> simp_all [Except.isOk, Except.toBool]

/-! ## Sending -/

@[simp] theorem snd_takeTransportUpdate (update : TransportUpdate) :
    (c.takeTransportUpdate update).2 =
      { c with
        transportsSent :=
          if isNewer update.version c.transportsSent then some update.version
          else c.transportsSent } := by
  simp only [takeTransportUpdate]
  split <;> rfl

@[simp] theorem snd_takeSubscriptionUpdate (update : SubscriptionUpdate) :
    (c.takeSubscriptionUpdate update).2 =
      { c with
        subscriptionsSent :=
          if isNewer update.version c.subscriptionsSent then some update.version
          else c.subscriptionsSent } := by
  simp only [takeSubscriptionUpdate]
  split <;> rfl

@[simp] theorem snd_takeAck (limit : Nat) :
    (c.takeAck limit).2 =
      { c with
        acksOwed := c.acksOwed.drop
          (fitting limit (fun _ => Ack.idLength) 0 Ack.baseLength c.acksOwed).length } := by
  simp only [takeAck]
  split
  next none => rw [List.isEmpty_iff.mp none, List.length_nil, List.drop_zero]
  next => rfl

@[simp] theorem snd_takeBatch (limit : Nat) :
    (c.takeBatch limit).2 =
      let messages := fitting limit Batch.messageLength 0 Batch.baseLength c.queued
      { c with
        queued := c.queued.drop messages.length
        outstanding := c.outstanding ++
          if messages.isEmpty then [] else [(Batch.id { messages }, { messages })] } := by
  simp only [takeBatch_eq]
  split
  next none => rw [List.isEmpty_iff.mp none, List.length_nil, List.drop_zero, List.append_nil]
  next => rfl

/-! ## Giving back -/

@[simp] theorem restore_transportUpdate (update : TransportUpdate) :
    c.restore (.transportUpdate update) =
      { c with
        transportsSent :=
          if c.transportsSent = some update.version then none else c.transportsSent } := by
  simp only [restore]
  split <;> rfl

@[simp] theorem restore_subscriptionUpdate (update : SubscriptionUpdate) :
    c.restore (.subscriptionUpdate update) =
      { c with
        subscriptionsSent :=
          if c.subscriptionsSent = some update.version then none else c.subscriptionsSent } := by
  simp only [restore]
  split <;> rfl

theorem oweFirst_of_disjoint {ids owed : List BatchId} (distinct : (ids ++ owed).Nodup) :
    oweFirst ids owed = ids ++ owed := by
  induction ids with
  | nil => rfl
  | cons id ids ih =>
      obtain ⟨absent, distinct⟩ := List.nodup_cons.mp distinct
      have rest := ih distinct
      have fresh : (ids ++ owed).contains id = false := by simpa using absent
      rw [oweFirst, List.foldr_cons, ← oweFirst, rest, fresh]
      rfl

theorem nodup_oweFirst (ids : List BatchId) {owed : List BatchId} (distinct : owed.Nodup) :
    (oweFirst ids owed).Nodup := by
  induction ids with
  | nil => exact distinct
  | cons id ids ih =>
      simp only [oweFirst] at ih
      simp only [oweFirst, List.foldr_cons]
      split
      · exact ih
      next absent => exact List.nodup_cons.mpr ⟨by simpa using absent, ih⟩

/-! ## Receiving -/

@[simp] theorem receive_transportUpdate (update : TransportUpdate) :
    c.receive (.transportUpdate update) =
      { c with
        remoteTransports := if isNewer update.version (c.remoteTransports.map (·.version)) then
          some update else c.remoteTransports } := by
  simp only [receive]
  split <;> rfl

@[simp] theorem receive_subscriptionUpdate (update : SubscriptionUpdate) :
    c.receive (.subscriptionUpdate update) =
      { c with
        remoteSubscriptions :=
          if isNewer update.version (c.remoteSubscriptions.map (·.version)) then some update
          else c.remoteSubscriptions } := by
  simp only [receive]
  split <;> rfl

@[simp] theorem receive_batch (batch : Batch) :
    c.receive (.batch batch) =
      { c with
        received := c.received ++ if batch.id ∈ c.seen then [] else batch.messages
        seen := (if batch.id ∈ c.seen then [] else [batch.id]) ++ c.seen
        acksOwed := c.acksOwed ++ if batch.id ∈ c.acksOwed then [] else [batch.id] } := by
  by_cases seen : batch.id ∈ c.seen <;> by_cases owed : batch.id ∈ c.acksOwed <;>
    simp [receive, seen, owed]

theorem mem_acksOwed_receive_batch (batch : Batch) {id : BatchId} :
    id ∈ (c.receive (.batch batch)).acksOwed ↔ id = batch.id ∨ id ∈ c.acksOwed := by
  rw [receive_batch]
  split
  next there =>
    rw [List.append_nil]
    refine (or_iff_right_of_imp ?_).symm
    rintro rfl
    exact there
  next => simp [or_comm]

end Conversation

end Courier
