import Courier.Proofs.Session.Arrival

/-! # What records leave, in whatever order they arrive

A conversation takes the records that arrive one after the other. If their
batches have names of their own, and their updates versions of their own, it
ends in the same state whatever their order was, up to the order of its lists:
messages of new batches are received, all batches are seen and owed, what was
acknowledged is outstanding no more, and of the updates the newest is held.
-/

namespace Courier

def Record.transportUpdate? : Record → Option TransportUpdate
  | .transportUpdate update => some update
  | subscriptionUpdate _ | ack _ | batch _ => none

def Record.subscriptionUpdate? : Record → Option SubscriptionUpdate
  | .subscriptionUpdate update => some update
  | transportUpdate _ | ack _ | batch _ => none

/-! ## The newest update -/

/-- Of what was held and what arrived, this has the highest version. What was held gives way only to
    a higher one. -/
structure Newest {α : Type} (version : α → UInt64) (held : Option α) (arrived : List α)
    (latest : Option α) : Prop where
  known : ∀ update ∈ latest, update ∈ held ∨ update ∈ arrived
  held_le : ∀ update ∈ held, ∃ last ∈ latest, version update < version last ∨ update = last
  arrived_le : ∀ update ∈ arrived, ∃ last ∈ latest, version update ≤ version last

namespace Newest

variable {α : Type} {version : α → UInt64} {held latest other : Option α} {arrived again : List α}

theorem refl (version : α → UInt64) (held : Option α) : Newest version held [] held where
  known := fun _ member => .inl member
  held_le := fun update member => ⟨update, member, .inr rfl⟩
  arrived_le := by simp

theorem take (newest : Newest version held arrived latest) (update : α) :
    Newest version held (arrived ++ [update])
      (if Conversation.isNewer (version update) (latest.map version) then some update
        else latest) := by
  obtain ⟨known, held_le, arrived_le⟩ := newest
  cases latest with
  | none =>
      refine ⟨?_, fun its member => ?_, fun its member => ⟨update, rfl, ?_⟩⟩
      · rintro _ ⟨⟩
        exact .inr (List.mem_append_right _ (List.mem_singleton_self _))
      · obtain ⟨last, none, -⟩ := held_le its member
        cases none
      · rcases List.mem_append.mp member with before | now
        · obtain ⟨last, none, -⟩ := arrived_le its before
          cases none
        · rw [List.mem_singleton.mp now]
          exact UInt64.le_refl _
  | some last =>
      by_cases newer : version last < version update
      · rw [if_pos (by simpa [Conversation.isNewer] using newer)]
        refine ⟨?_, fun its member => ⟨update, rfl, .inl ?_⟩, fun its member => ⟨update, rfl, ?_⟩⟩
        · rintro _ ⟨⟩
          exact .inr (List.mem_append_right _ (List.mem_singleton_self _))
        · obtain ⟨_, ⟨⟩, less | rfl⟩ := held_le its member
          · exact UInt64.lt_trans less newer
          · exact newer
        · rcases List.mem_append.mp member with before | now
          · obtain ⟨_, ⟨⟩, least⟩ := arrived_le its before
            exact UInt64.le_of_lt (UInt64.lt_of_le_of_lt least newer)
          · rw [List.mem_singleton.mp now]
            exact UInt64.le_refl _
      · rw [if_neg (by simpa [Conversation.isNewer] using newer)]
        refine ⟨fun its member => (known its member).imp_right (List.mem_append_left _), held_le,
          fun its member => ?_⟩
        rcases List.mem_append.mp member with before | now
        · exact arrived_le its before
        · rw [List.mem_singleton.mp now]
          exact ⟨last, rfl, UInt64.not_lt.mp newer⟩

theorem exists_le (newest : Newest version held arrived latest) {update : α}
    (known : update ∈ held ∨ update ∈ arrived) :
    ∃ last ∈ latest, version update ≤ version last := by
  rcases known with before | now
  · obtain ⟨last, member, less | rfl⟩ := newest.held_le update before
    · exact ⟨last, member, UInt64.le_of_lt less⟩
    · exact ⟨update, member, UInt64.le_refl _⟩
  · exact newest.arrived_le update now

/-- Only one of the updates that arrived has the highest version. -/
theorem unique (newest : Newest version held arrived latest)
    (also : Newest version held again other) (same : ∀ update, update ∈ arrived ↔ update ∈ again)
    (distinct : (arrived.map version).Nodup) : latest = other := by
  have forth : ∀ first ∈ latest, ∃ second ∈ other, version first ≤ version second :=
    fun first member => also.exists_le ((newest.known first member).imp_right (same first).mp)
  have back : ∀ second ∈ other, ∃ first ∈ latest, version second ≤ version first :=
    fun second member => newest.exists_le ((also.known second member).imp_right (same second).mpr)
  rcases latest with _ | first
  · rcases other with _ | second
    · rfl
    · obtain ⟨_, none, -⟩ := back second rfl
      cases none
  · obtain ⟨second, rfl, least⟩ := forth first rfl
    obtain ⟨_, ⟨⟩, most⟩ := back second rfl
    have versions : version first = version second := UInt64.le_antisymm least most
    have older : ¬ version first < version second := versions ▸ UInt64.lt_irrefl _
    have newer : ¬ version second < version first := versions ▸ UInt64.lt_irrefl _
    refine congrArg some ?_
    rcases newest.known first rfl with before | arrivedFirst
    · obtain ⟨_, ⟨⟩, less | same⟩ := also.held_le first before
      · exact absurd less older
      · exact same
    · rcases also.known second rfl with before | arrivedSecond
      · obtain ⟨_, ⟨⟩, less | same⟩ := newest.held_le second before
        · exact absurd less newer
        · exact same.symm
      · exact List.inj_on_of_nodup_map distinct arrivedFirst ((same second).mpr arrivedSecond)
          versions

end Newest

namespace Conversation

/-! ## What records leave -/

/-- The conversation after these records, in any order, but for the updates that it holds. -/
def gathered (c : Conversation) (records : List Record) (transports : Option TransportUpdate)
    (subscriptions : Option SubscriptionUpdate) : Conversation :=
  { c with
    outstanding := c.outstanding.filter fun entry => entry.1 ∉ records.flatMap Record.acked
    received := c.received ++
      ((Record.batches records).filter fun batch => batch.id ∉ c.seen).flatMap (·.messages)
    seen := (((Record.batches records).map Batch.id).filter (· ∉ c.seen)).reverse ++ c.seen
    acksOwed := c.acksOwed ++ ((Record.batches records).map Batch.id).filter (· ∉ c.acksOwed)
    remoteTransports := transports
    remoteSubscriptions := subscriptions }

/-- What has become of a conversation once these records have arrived. -/
structure Gathers (before : Conversation) (records : List Record) (after : Conversation) :
    Prop where
  transports : Newest (·.version) before.remoteTransports
    (records.filterMap Record.transportUpdate?) after.remoteTransports
  subscriptions : Newest (·.version) before.remoteSubscriptions
    (records.filterMap Record.subscriptionUpdate?) after.remoteSubscriptions
  rest : after = before.gathered records after.remoteTransports after.remoteSubscriptions

variable {before after other : Conversation} {records more : List Record}

theorem Gathers.refl (c : Conversation) : c.Gathers [] c where
  transports := .refl _ _
  subscriptions := .refl _ _
  rest := by simp [gathered, Record.batches]

theorem nodup_acksOwed_receiveAll (records : List Record) {c : Conversation}
    (once : c.acksOwed.Nodup) : (c.receiveAll records).acksOwed.Nodup := by
  induction records generalizing c with
  | nil => exact once
  | cons record records ih => exact ih ((Change.receive c record).nodup_acksOwed once)

theorem length_acksOwed_receive (record : Record) (c : Conversation) :
    (c.receive record).acksOwed.length ≤ c.acksOwed.length + 1 := by
  cases record with
  | transportUpdate | subscriptionUpdate => simp
  | ack => exact Nat.le_succ _
  | batch batch =>
      rw [receive_batch, List.length_append]
      split <;> simp

/-- Each record that arrives adds at most one acknowledgement to those that are owed. -/
theorem length_acksOwed_receiveAll (records : List Record) (c : Conversation) :
    (c.receiveAll records).acksOwed.length ≤ c.acksOwed.length + records.length := by
  induction records generalizing c with
  | nil => exact Nat.le_refl _
  | cons record records ih =>
      have first := length_acksOwed_receive record c
      have rest : ((c.receive record).receiveAll records).acksOwed.length ≤
          (c.receive record).acksOwed.length + records.length := ih _
      have step : c.receiveAll (record :: records) = (c.receive record).receiveAll records := rfl
      rw [step, List.length_cons]
      omega

/-- Records of other kinds bring no update of this one. -/
private theorem newest_append {α : Type} {version : α → UInt64} {held latest : Option α}
    {update? : Record → Option α} {record : Record} (none : update? record = none)
    (newest : Newest version held (records.filterMap update?) latest) :
    Newest version held ((records ++ [record]).filterMap update?) latest := by
  rwa [List.filterMap_append, List.filterMap_cons, none, List.filterMap_nil, List.append_nil]

/-- A name that is seen or owed now was so before, unless its batch has arrived. -/
private theorem mem_append_filter {known : List BatchId} {id : BatchId} {names : List BatchId}
    (fresh : id ∉ names) : id ∈ known ++ names.filter (· ∉ known) ↔ id ∈ known := by
  simp [fresh]

/-- A batch of a new name adds its messages and its name where they are missing. -/
private theorem gathered_append_batch (c : Conversation) (transports : Option TransportUpdate)
    (subscriptions : Option SubscriptionUpdate) {batch : Batch}
    (fresh : batch.id ∉ (Record.batches records).map Batch.id) :
    c.gathered (records ++ [.batch batch]) transports subscriptions =
      (c.gathered records transports subscriptions).receive (.batch batch) := by
  have seen : batch.id ∈ (c.gathered records transports subscriptions).seen ↔
      batch.id ∈ c.seen := by
    rw [gathered, List.mem_append, List.mem_reverse, or_comm, ← List.mem_append]
    exact mem_append_filter fresh
  have owed : batch.id ∈ (c.gathered records transports subscriptions).acksOwed ↔
      batch.id ∈ c.acksOwed := mem_append_filter fresh
  rw [receive_batch]
  simp only [seen, owed]
  by_cases known : batch.id ∈ c.seen <;> by_cases due : batch.id ∈ c.acksOwed <;>
    simp [gathered, known, due, Record.batches, Record.batch?, Record.acked]

/-- One more record, whose batch is none of those before. -/
theorem Gathers.receive (gathers : before.Gathers records after) (record : Record)
    (fresh : ∀ batch ∈ Record.batches [record], batch.id ∉ (Record.batches records).map Batch.id) :
    before.Gathers (records ++ [record]) (after.receive record) := by
  obtain ⟨transports, subscriptions, rest⟩ := gathers
  cases record with
  | transportUpdate update =>
      rw [receive_transportUpdate]
      refine ⟨?_, newest_append rfl subscriptions, ?_⟩
      · rw [List.filterMap_append]
        exact transports.take update
      · rw [rest]
        simp [gathered, Record.batches, Record.batch?, Record.acked]
  | subscriptionUpdate update =>
      rw [receive_subscriptionUpdate]
      refine ⟨newest_append rfl transports, ?_, ?_⟩
      · rw [List.filterMap_append]
        exact subscriptions.take update
      · rw [rest]
        simp [gathered, Record.batches, Record.batch?, Record.acked]
  | ack ack =>
      refine ⟨newest_append rfl transports, newest_append rfl subscriptions, ?_⟩
      have batches : Record.batches (records ++ [.ack ack]) = Record.batches records := by
        simp [Record.batches, Record.batch?]
      have cleared : ∀ entry : BatchId × Batch,
          (!ack.batchIds.contains entry.1 && decide (entry.1 ∉ records.flatMap Record.acked)) =
            decide (entry.1 ∉ (records ++ [Record.ack ack]).flatMap Record.acked) := by
        intro entry
        rw [List.flatMap_append, List.flatMap_singleton, Bool.eq_iff_iff]
        simp [Record.acked, and_comm]
      rw [rest]
      simp only [Conversation.receive, gathered, List.filter_filter, batches, cleared]
  | batch batch =>
      have new := fresh batch (by simp [Record.batches, Record.batch?])
      have kept : (after.receive (.batch batch)).remoteTransports = after.remoteTransports ∧
          (after.receive (.batch batch)).remoteSubscriptions = after.remoteSubscriptions := by
        rw [receive_batch]
        exact ⟨rfl, rfl⟩
      refine ⟨?_, ?_, ?_⟩
      · rw [kept.1]
        exact newest_append rfl transports
      · rw [kept.2]
        exact newest_append rfl subscriptions
      · rw [kept.1, kept.2, gathered_append_batch _ _ _ new, ← rest]

/-- Batches of different names arrive one after the other. -/
theorem gathers_receiveAll (c : Conversation)
    (distinct : ((Record.batches records).map Batch.id).Nodup) :
    c.Gathers records (c.receiveAll records) := by
  induction records using List.reverseRecOn with
  | nil => exact .refl c
  | append_singleton records record ih =>
      rw [Record.batches_append, List.map_append] at distinct
      obtain ⟨before, -, apart⟩ := List.nodup_append.mp distinct
      rw [receiveAll, List.foldl_append, ← receiveAll]
      refine (ih before).receive record fun batch member known => ?_
      exact apart _ known _ (List.mem_map_of_mem member) rfl

/-! ## Other orders -/

/-- The same state, but for the order of what was received, is seen and is owed. -/
structure SameUpToOrder (c c' : Conversation) : Prop where
  role : c'.role = c.role
  period : c'.period = c.period
  lanes : c'.lanes = c.lanes
  queued : c'.queued = c.queued
  outstanding : c'.outstanding = c.outstanding
  transportsSent : c'.transportsSent = c.transportsSent
  subscriptionsSent : c'.subscriptionsSent = c.subscriptionsSent
  received : c'.received.Perm c.received
  seen : c'.seen.Perm c.seen
  acksOwed : c'.acksOwed.Perm c.acksOwed
  remoteTransports : c'.remoteTransports = c.remoteTransports
  remoteSubscriptions : c'.remoteSubscriptions = c.remoteSubscriptions

theorem Gathers.sameUpToOrder (gathers : before.Gathers records after)
    (also : before.Gathers more other) (perm : more.Perm records)
    (transports : ((records.filterMap Record.transportUpdate?).map (·.version)).Nodup)
    (subscriptions : ((records.filterMap Record.subscriptionUpdate?).map (·.version)).Nodup) :
    after.SameUpToOrder other := by
  have batches : (Record.batches more).Perm (Record.batches records) :=
    (perm.filterMap _).map _
  have sameTransports : after.remoteTransports = other.remoteTransports :=
    gathers.transports.unique also.transports (fun _ => (perm.filterMap _).mem_iff.symm) transports
  have sameSubscriptions : after.remoteSubscriptions = other.remoteSubscriptions :=
    gathers.subscriptions.unique also.subscriptions (fun _ => (perm.filterMap _).mem_iff.symm)
      subscriptions
  rw [gathers.rest, also.rest]
  constructor
  case role | period | lanes | queued | transportsSent | subscriptionsSent => rfl
  case remoteTransports => exact sameTransports.symm
  case remoteSubscriptions => exact sameSubscriptions.symm
  case outstanding =>
    refine List.filter_congr fun entry _ => ?_
    rw [decide_eq_decide, (perm.flatMap_right _).mem_iff]
  case received => exact ((batches.filter _).flatMap_right _).append_left _
  case seen =>
    have names := (batches.map Batch.id).filter (· ∉ before.seen)
    exact (((List.reverse_perm _).trans names).trans (List.reverse_perm _).symm).append_right _
  case acksOwed => exact ((batches.map _).filter _).append_left _

end Conversation

end Courier
