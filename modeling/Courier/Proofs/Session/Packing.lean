import Courier.Proofs.Session.Completion

/-! # What fits in a connection

A connection has room for a record if the record fits in one frame and leaves
room for the final frame. What it carries follows from what waits, its capacity
and its frame limit alone: the updates that are due, as long as the next one
fits, then acknowledgements, each of as many names as there is room for, and
then batches of as many messages. An update that does not fit ends it all.
-/

namespace Courier

/-! ## Room -/

namespace Frame

theorem totalCost_append (frames more : List Marked) :
    totalCost (frames ++ more) = totalCost frames + totalCost more := by
  induction frames with
  | nil => exact (Nat.zero_add _).symm
  | cons frame frames ih =>
      obtain ⟨payload, final⟩ := frame
      rw [List.cons_append, totalCost, totalCost, ih]
      omega

theorem ofRecords_append (records more : List Record) :
    ofRecords (records ++ more) = ofRecords records ++ ofRecords more :=
  List.map_append

theorem totalCost_ofRecords (records : List Record) :
    totalCost (ofRecords records) = (records.map fun record => 36 + record.encode.length).sum := by
  induction records with
  | nil => rfl
  | cons record records ih => simpa [ofRecords, totalCost, overhead] using ih

end Frame

namespace Session

/-- The longest record that fits in a connection after these records. -/
def roomFor (capacity limit : Nat) (records : List Record) : Nat :=
  Frame.roomAfter capacity limit (Frame.ofRecords records)

theorem length_encode_pos (record : Record) : 0 < record.encode.length := by
  have tagged : ∀ variant count fields, 0 < (Record.tagged variant count fields).length := by
    intro variant count fields
    have head : Cbor.headLength 1 = 1 := rfl
    simp only [Record.tagged, List.length_append, Cbor.length_write, head]
    omega
  cases record <;> exact tagged _ _ _

variable {capacity limit : Nat}

theorem roomFor_append_le (records more : List Record) :
    roomFor capacity limit (records ++ more) ≤ roomFor capacity limit records := by
  simp only [roomFor, Frame.roomAfter, Frame.ofRecords_append, Frame.totalCost_append]
  omega

/-! ## Records of many items -/

/-- A kind of record that takes as many items as fit. -/
structure Bulk (α : Type) where
  record : List α → Record
  base : Nat
  size : α → Nat
  length_encode : ∀ items, (record items).encode.length =
    base + (items.map size).sum + Cbor.headLength items.length

end Session

theorem Cbor.length_list {α : Type} (item : α → Bytes) (values : List α) :
    (list item values).length =
      headLength values.length + (values.map fun value => (item value).length).sum := by
  rw [list, List.length_append, length_write, List.length_flatMap]

namespace Session.Bulk

def acks : Bulk BatchId where
  record ids := .ack ⟨ids⟩
  base := Ack.baseLength
  size _ := Ack.idLength
  length_encode := by
    intro ids
    have each : ∀ id : BatchId, (Cbor.byteString id.bytes).length = Ack.idLength := by
      intro id
      rw [Cbor.byteString, List.length_append, Cbor.length_write, id.length_eq, Ack.idLength]
    simp only [Record.encode, Record.tagged, Ack.baseLength, List.length_append, Cbor.length_list,
      each]
    omega

def batches : Bulk Bytes where
  record messages := .batch ⟨messages⟩
  base := Batch.baseLength
  size := Batch.messageLength
  length_encode := by
    intro messages
    have each : (fun message => (Cbor.byteString message).length) = Batch.messageLength := by
      funext message
      rw [Cbor.byteString, List.length_append, Cbor.length_write, Batch.messageLength]
    simp only [Record.encode, Record.tagged, Batch.baseLength, List.length_append,
      Cbor.length_list, each]
    omega

variable {α : Type} (bulk : Bulk α)

/-- The items at the front that fit in one record. -/
def part (room : Nat) (items : List α) : List α :=
  fitting room bulk.size 0 bulk.base items

variable {bulk} {room : Nat} {items : List α}

theorem length_fitting {size : α → Nat} {count used : Nat}
    (some : fitting room size count used items ≠ []) :
    used + ((fitting room size count used items).map size).sum +
      Cbor.headLength (count + (fitting room size count used items).length) ≤ room := by
  induction items generalizing count used with
  | nil => exact absurd rfl some
  | cons item items ih =>
      simp only [fitting] at some ⊢
      split at some
      next fits =>
        rw [if_pos fits]
        by_cases last : fitting room size (count + 1) (used + size item) items = []
        · simpa [last] using fits
        · have rest := ih last
          simp only [List.map_cons, List.sum_cons, List.length_cons]
          rw [show count + ((fitting room size (count + 1) (used + size item) items).length + 1) =
            count + 1 + (fitting room size (count + 1) (used + size item) items).length by omega]
          omega
      next => exact absurd rfl some

/-- What is taken for one record fits. -/
theorem length_part_le (some : bulk.part room items ≠ []) :
    (bulk.record (bulk.part room items)).encode.length ≤ room := by
  have fits := length_fitting some
  rwa [Nat.zero_add, ← part, ← bulk.length_encode] at fits

/-- If nothing is taken, the next item does not fit. -/
theorem lt_of_part_eq_nil (none : bulk.part room items = []) :
    ∀ item ∈ items.head?, room < (bulk.record [item]).encode.length := by
  intro item next
  cases items with
  | nil => cases next
  | cons first items =>
      obtain rfl := Option.some.inj next
      simp only [part, fitting] at none
      split at none
      · cases none
      next large => simpa [bulk.length_encode] using large

theorem part_append_drop (bulk : Bulk α) (room : Nat) (items : List α) :
    bulk.part room items ++ items.drop (bulk.part room items).length = items :=
  fitting_append_drop room bulk.size 0 bulk.base items

theorem length_drop_part_lt (some : bulk.part room items ≠ []) :
    (items.drop (bulk.part room items).length).length < items.length := by
  have whole := congrArg List.length (bulk.part_append_drop room items)
  have positive := List.length_pos_iff.mpr some
  rw [List.length_append] at whole
  omega

variable (bulk) (capacity limit : Nat)

/-- The items of each record that fits after those before. -/
def pack (before : List Record) (items : List α) : List (List α) :=
  if _some : bulk.part (roomFor capacity limit before) items = [] then
    []
  else
    bulk.part (roomFor capacity limit before) items ::
      pack (before ++ [bulk.record (bulk.part (roomFor capacity limit before) items)])
        (items.drop (bulk.part (roomFor capacity limit before) items).length)
  termination_by items.length
  decreasing_by exact length_drop_part_lt _some

/-- The records that fit after those before. -/
def records (before : List Record) (items : List α) : List Record :=
  (bulk.pack capacity limit before items).map bulk.record

/-- The items that are left after these records. -/
def left (before : List Record) (items : List α) : List α :=
  items.drop (bulk.pack capacity limit before items).flatten.length

variable {bulk capacity limit} {before : List Record}

theorem records_of_nil (none : bulk.part (roomFor capacity limit before) items = []) :
    bulk.records capacity limit before items = [] ∧
      bulk.left capacity limit before items = items := by
  rw [records, left, pack, dif_pos none]
  exact ⟨rfl, rfl⟩

theorem records_of_noRoom (noRoom : roomFor capacity limit before = 0) :
    bulk.records capacity limit before items = [] ∧
      bulk.left capacity limit before items = items := by
  refine records_of_nil (Classical.byContradiction fun some => ?_)
  have fits := length_part_le some
  have positive :=
    length_encode_pos (bulk.record (bulk.part (roomFor capacity limit before) items))
  omega

theorem records_of_some (some : bulk.part (roomFor capacity limit before) items ≠ []) :
    bulk.records capacity limit before items =
        bulk.record (bulk.part (roomFor capacity limit before) items) ::
          bulk.records capacity limit
            (before ++ [bulk.record (bulk.part (roomFor capacity limit before) items)])
            (items.drop (bulk.part (roomFor capacity limit before) items).length) ∧
      bulk.left capacity limit before items =
        bulk.left capacity limit
          (before ++ [bulk.record (bulk.part (roomFor capacity limit before) items)])
          (items.drop (bulk.part (roomFor capacity limit before) items).length) := by
  rw [records, left, pack, dif_neg some]
  refine ⟨rfl, ?_⟩
  rw [left, List.flatten_cons, List.length_append, List.drop_drop]

theorem flatten_pack_append_left (bulk : Bulk α) (capacity limit : Nat) (before : List Record)
    (items : List α) :
    (bulk.pack capacity limit before items).flatten ++ bulk.left capacity limit before items =
      items := by
  fun_induction bulk.pack capacity limit before items with
  | case1 before items none => rw [(records_of_nil none).2, List.flatten_nil, List.nil_append]
  | case2 before items some ih =>
      rw [(records_of_some some).2, List.flatten_cons, List.append_assoc, ih, part_append_drop]

/-- When no more records fit, not even the next item does. -/
theorem lt_of_mem_left (bulk : Bulk α) (capacity limit : Nat) (before : List Record)
    (items : List α) :
    ∀ item ∈ (bulk.left capacity limit before items).head?,
      roomFor capacity limit (before ++ bulk.records capacity limit before items) <
        (bulk.record [item]).encode.length := by
  fun_induction bulk.pack capacity limit before items with
  | case1 before items none =>
      rw [(records_of_nil none).1, (records_of_nil none).2, List.append_nil]
      exact lt_of_part_eq_nil none
  | case2 before items some ih =>
      rw [(records_of_some some).1, (records_of_some some).2]
      simpa only [List.append_assoc, List.singleton_append] using ih

end Session.Bulk

/-! ## All that a connection carries -/

/-- What waits to be sent to a contact: the updates that are due, and the rest. -/
structure Waiting where
  transports : List Record
  subscriptions : List Record
  owed : List BatchId
  queued : List Bytes

/-- The updates, most urgent first. -/
def Waiting.updates (w : Waiting) : List Record :=
  w.transports ++ w.subscriptions

/-- What waits, where this mailbox tells which updates are published. -/
def Conversation.waiting (m : Mailbox) (c : Conversation) : Waiting where
  transports :=
    (m.transports.filter fun update => isNewer update.version c.transportsSent).toList.map
      .transportUpdate
  subscriptions :=
    (m.subscriptions.filter fun update => isNewer update.version c.subscriptionsSent).toList.map
      .subscriptionUpdate
  owed := c.acksOwed
  queued := c.queued

namespace Session

variable (capacity limit : Nat)

/-- The updates that are written after the records before: those up to the first that does not
    fit. -/
def packUpdates (before : List Record) : List Record → List Record
  | [] => []
  | update :: updates =>
      if update.encode.length ≤ roomFor capacity limit before then
        update :: packUpdates (before ++ [update]) updates
      else
        []

/-- The records that a connection carries, where this waits. -/
def packed (w : Waiting) : List Record :=
  let first := packUpdates capacity limit [] w.updates
  if first = w.updates then
    let second := first ++ Bulk.acks.records capacity limit first w.owed
    second ++ Bulk.batches.records capacity limit second w.queued
  else
    first

/-- What is left of what waits once a connection carries what fits. -/
structure Leaves (w rest : Waiting) : Prop where
  updates : w.updates = packUpdates capacity limit [] w.updates ++ rest.updates
  /-- Nothing else goes before all updates have gone. -/
  blocked : rest.updates ≠ [] → rest.owed = w.owed ∧ rest.queued = w.queued
  owed : rest.updates = [] → rest.owed = Bulk.acks.left capacity limit w.updates w.owed
  queued : rest.updates = [] → rest.queued = Bulk.batches.left capacity limit
    (w.updates ++ Bulk.acks.records capacity limit w.updates w.owed) w.queued

variable {capacity limit}

variable (capacity limit) in
theorem packUpdates_append (before updates more : List Record) :
    packUpdates capacity limit before (updates ++ more) =
      packUpdates capacity limit before updates ++
        if packUpdates capacity limit before updates = updates then
          packUpdates capacity limit (before ++ updates) more
        else [] := by
  induction updates generalizing before with
  | nil => simp [packUpdates]
  | cons update updates ih =>
      simp only [List.cons_append, packUpdates]
      split
      · rw [ih, List.cons_append, List.append_assoc, List.singleton_append]
        simp only [List.cons.injEq, true_and]
      · simp

/-- When no more updates fit, not even the next one does. -/
theorem lt_of_packUpdates {before updates rest : List Record}
    (split : updates = packUpdates capacity limit before updates ++ rest) :
    ∀ update ∈ rest.head?, roomFor capacity limit
      (before ++ packUpdates capacity limit before updates) < update.encode.length := by
  induction updates generalizing before with
  | nil =>
      obtain rfl : rest = [] := (List.append_eq_nil_iff.mp split.symm).2
      nofun
  | cons update updates ih =>
      rw [packUpdates] at split ⊢
      split at split
      next fits =>
        rw [if_pos fits]
        have later := ih (List.cons.inj split).2
        rwa [List.append_assoc, List.singleton_append] at later
      next large =>
        rw [if_neg large, List.append_nil]
        obtain rfl := split
        intro next member
        obtain rfl := Option.some.inj member
        exact Nat.lt_of_not_le large

theorem packed_of_all {w : Waiting} (all : packUpdates capacity limit [] w.updates = w.updates) :
    packed capacity limit w =
      (w.updates ++ Bulk.acks.records capacity limit w.updates w.owed) ++
        Bulk.batches.records capacity limit
          (w.updates ++ Bulk.acks.records capacity limit w.updates w.owed) w.queued := by
  simp only [packed, all, if_true]

theorem packed_of_not_all {w : Waiting}
    (blocked : packUpdates capacity limit [] w.updates ≠ w.updates) :
    packed capacity limit w = packUpdates capacity limit [] w.updates := by
  simp only [packed, blocked, if_false]

/-- What a connection carries that was filled as far as there is room, where `w` waited and `rest`
    is left. -/
structure Full (capacity limit : Nat) (w rest : Waiting) (records : List Record) (bytes : Nat) :
    Prop where
  bytes_eq : bytes =
    if records = [] then 0
    else 16 + (records.map fun record => 36 + record.encode.length).sum + 36
  within : bytes ≤ capacity
  /-- The records come in this order, each class from the front of what waited. -/
  classes : ∃ (transports : Option TransportUpdate) (subscriptions : Option SubscriptionUpdate)
    (acks : List Ack) (batches : List Batch),
    records = transports.toList.map .transportUpdate ++
      subscriptions.toList.map .subscriptionUpdate ++ acks.map .ack ++ batches.map .batch ∧
    w.updates = transports.toList.map .transportUpdate ++
      subscriptions.toList.map .subscriptionUpdate ++ rest.updates ∧
    w.owed = acks.flatMap (·.batchIds) ++ rest.owed ∧
    w.queued = batches.flatMap (·.messages) ++ rest.queued ∧
    (rest.updates ≠ [] → acks = [] ∧ batches = [])
  /-- An update that is still due does not fit. -/
  update_large : ∀ update ∈ rest.updates.head?,
    roomFor capacity limit records < update.encode.length
  ack_large : rest.updates = [] → ∀ id ∈ rest.owed.head?,
    roomFor capacity limit records < (Record.ack ⟨[id]⟩).encode.length
  batch_large : rest.updates = [] → ∀ message ∈ rest.queued.head?,
    roomFor capacity limit records < (Record.batch ⟨[message]⟩).encode.length

end Session

namespace Waiting

/-- The updates at the front are at most one of each kind. -/
theorem exists_updates {m : Mailbox} {c : Conversation} {updates rest : List Record}
    (split : (c.waiting m).updates = updates ++ rest) :
    ∃ (transports : Option TransportUpdate) (subscriptions : Option SubscriptionUpdate),
      updates = transports.toList.map .transportUpdate ++
        subscriptions.toList.map .subscriptionUpdate := by
  simp only [Waiting.updates, Conversation.waiting] at split
  generalize m.transports.filter _ = transports at split
  generalize m.subscriptions.filter _ = subscriptions at split
  rcases updates with _ | ⟨first, updates⟩
  · exact ⟨none, none, rfl⟩
  cases transports with
  | none =>
      refine ⟨none, subscriptions, ?_⟩
      cases subscriptions with
      | none => cases split
      | some subscription =>
          obtain ⟨rfl, nil⟩ := List.cons.inj split
          rw [(List.append_eq_nil_iff.mp nil.symm).1]
          rfl
  | some transport =>
      obtain ⟨rfl, tail⟩ := List.cons.inj split
      rcases updates with _ | ⟨second, updates⟩
      · exact ⟨some transport, none, rfl⟩
      · refine ⟨some transport, subscriptions, ?_⟩
        cases subscriptions with
        | none => cases tail
        | some subscription =>
            obtain ⟨rfl, nil⟩ := List.cons.inj tail
            rw [(List.append_eq_nil_iff.mp nil.symm).1]
            rfl

end Waiting

namespace Session

/-- What is packed and what is left fill the connection. -/
theorem Leaves.full {m : Mailbox} {c : Conversation} {rest : Waiting} {bytes : Nat}
    (leaves : Leaves capacity limit (c.waiting m) rest)
    (bytes_eq : bytes =
      if packed capacity limit (c.waiting m) = [] then 0
      else 16 +
        ((packed capacity limit (c.waiting m)).map fun record =>
          36 + record.encode.length).sum + 36)
    (within : bytes ≤ capacity) :
    Full capacity limit (c.waiting m) rest (packed capacity limit (c.waiting m)) bytes := by
  obtain ⟨split, blocked, owed, queued⟩ := leaves
  obtain ⟨transports, subscriptions, shape⟩ := Waiting.exists_updates split
  have large := lt_of_packUpdates split
  generalize waits : c.waiting m = w at *
  by_cases all : packUpdates capacity limit [] w.updates = w.updates
  case pos =>
    have gone : rest.updates = [] := by
      rw [all] at split
      exact List.append_right_eq_self.mp split.symm
    have ownAcks := Bulk.acks.flatten_pack_append_left capacity limit w.updates w.owed
    have ownBatches := Bulk.batches.flatten_pack_append_left capacity limit
      (w.updates ++ Bulk.acks.records capacity limit w.updates w.owed) w.queued
    have records := packed_of_all all
    refine ⟨bytes_eq, within, ⟨transports, subscriptions,
      (Bulk.acks.pack capacity limit w.updates w.owed).map Ack.mk,
      (Bulk.batches.pack capacity limit
        (w.updates ++ Bulk.acks.records capacity limit w.updates w.owed) w.queued).map Batch.mk,
      ?_, ?_, ?_, ?_, fun some => absurd gone some⟩, ?_, ?_, ?_⟩
    · rw [records, ← shape, all, List.map_map, List.map_map]
      rfl
    · rw [← shape, all, gone, List.append_nil]
    · rw [owed gone, List.flatMap_map, List.flatMap_id', ownAcks]
    · rw [queued gone, List.flatMap_map, List.flatMap_id', ownBatches]
    · rw [gone]
      nofun
    · intro _ id next
      rw [owed gone] at next
      have alone := Bulk.acks.lt_of_mem_left capacity limit w.updates w.owed id next
      rw [records]
      exact Nat.lt_of_le_of_lt (roomFor_append_le _ _) alone
    · intro _ message next
      rw [queued gone] at next
      rw [records]
      exact Bulk.batches.lt_of_mem_left capacity limit _ w.queued message next
  case neg =>
    have some : rest.updates ≠ [] := by
      intro gone
      rw [gone, List.append_nil] at split
      exact all split.symm
    have records := packed_of_not_all all
    obtain ⟨owed, queued⟩ := blocked some
    refine ⟨bytes_eq, within,
      ⟨transports, subscriptions, [], [], ?_, ?_, ?_, ?_, fun _ => ⟨rfl, rfl⟩⟩, ?_,
      fun gone => absurd gone some, fun gone => absurd gone some⟩
    · rw [records, shape, List.map_nil, List.map_nil, List.append_nil, List.append_nil]
    · rw [← shape, ← split]
    · exact owed.symm
    · exact queued.symm
    · rw [records]
      simpa using large

end Session

end Courier
