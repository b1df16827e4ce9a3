import Courier.Proofs.Session.Packing
import Mathlib.Data.Nat.Find

/-! # Records are filled as far as they can be

A record of many items is longer than a record of fewer of them, whatever the
items are, because the head that counts them never gets shorter. So the first
item that does not fit is followed by none that could, and what a mailbox takes
for one record is the longest front part whose record is within the limit.
-/

namespace Courier

/-- A greater argument needs no shorter head. -/
theorem Cbor.headLength_mono {m n : Nat} (le : m ≤ n) : headLength m ≤ headLength n := by
  simp only [headLength]
  split_ifs <;> omega

namespace Session.Bulk

variable {α : Type} {bulk : Bulk α} {room : Nat} {items : List α}

/-- How many items at the front make the longest record within `room`; zero if not even one fits. -/
def most (bulk : Bulk α) (room : Nat) (items : List α) : Nat :=
  Nat.findGreatest (fun count => (bulk.record (items.take count)).encode.length ≤ room)
    items.length

theorem length_encode_le_of_front {front : List α} (within : front <+: items) :
    (bulk.record front).encode.length ≤ (bulk.record items).encode.length := by
  obtain ⟨rest, rfl⟩ := within
  have heads : Cbor.headLength front.length ≤ Cbor.headLength (front ++ rest).length :=
    Cbor.headLength_mono (by simp)
  rw [bulk.length_encode, bulk.length_encode, List.map_append, List.sum_append]
  omega

/-- With the item that was left where taking stopped, a record would be too long. -/
theorem lt_fitting_next {size : α → Nat} {count used : Nat} {next : α} {rest : List α}
    (left : items.drop (fitting room size count used items).length = next :: rest) :
    room < used + ((fitting room size count used items).map size).sum + size next +
      Cbor.headLength (count + (fitting room size count used items).length + 1) := by
  induction items generalizing count used with
  | nil => cases left
  | cons item items ih =>
      simp only [fitting] at left ⊢
      split at left
      next fits =>
        rw [if_pos fits]
        have beyond := ih left
        simp only [List.map_cons, List.sum_cons, List.length_cons]
        rw [show count + ((fitting room size (count + 1) (used + size item) items).length + 1) + 1 =
          count + 1 + (fitting room size (count + 1) (used + size item) items).length + 1 by omega]
        omega
      next large =>
        rw [if_neg large]
        obtain ⟨rfl, -⟩ := List.cons.inj left
        simpa using large

theorem lt_length_part_next {next : α} {rest : List α}
    (left : items.drop (bulk.part room items).length = next :: rest) :
    room < (bulk.record (bulk.part room items ++ [next])).encode.length := by
  have beyond := lt_fitting_next left
  rw [Nat.zero_add, ← part] at beyond
  rw [bulk.length_encode]
  simp only [List.map_append, List.sum_append, List.map_singleton, List.sum_singleton,
    List.length_append, List.length_singleton]
  omega

/-- What is taken for one record is the longest front part that fits. -/
theorem part_eq_take_most (bulk : Bulk α) (room : Nat) (items : List α) :
    bulk.part room items = items.take (bulk.most room items) := by
  have whole := bulk.part_append_drop room items
  have front : items.take (bulk.part room items).length = bulk.part room items :=
    (List.prefix_iff_eq_take.mp ⟨_, whole⟩).symm
  suffices greatest : bulk.most room items = (bulk.part room items).length by
    rw [greatest, front]
  refine Nat.findGreatest_eq_iff.mpr ⟨?_, fun some => ?_, fun count more atMost => ?_⟩
  · rw [← front, List.length_take]
    exact Nat.min_le_right ..
  · rw [front]
    exact length_part_le (List.ne_nil_of_length_pos (Nat.pos_of_ne_zero some))
  · -- a longer front part starts with what was taken and the item behind it
    obtain ⟨next, rest, left⟩ : ∃ next rest,
        items.drop (bulk.part room items).length = next :: rest :=
      List.exists_cons_of_ne_nil (by simp; omega)
    have longer : bulk.part room items ++ [next] <+: items.take count := by
      rw [List.prefix_take_iff]
      refine ⟨⟨rest, ?_⟩, by simp; omega⟩
      rw [List.append_assoc, List.singleton_append, ← left, whole]
    exact Nat.not_le.mpr
      (Nat.lt_of_lt_of_le (lt_length_part_next left) (length_encode_le_of_front longer))

theorem part_eq_nil_iff (bulk : Bulk α) (room : Nat) (items : List α) :
    bulk.part room items = [] ↔ bulk.most room items = 0 := by
  rw [part_eq_take_most, List.take_eq_nil_iff]
  refine ⟨fun none => none.elim id ?_, .inl⟩
  rintro rfl
  exact Nat.le_zero.mp (Nat.findGreatest_le 0)

theorem length_take_most (bulk : Bulk α) (room : Nat) (items : List α) :
    (items.take (bulk.most room items)).length = bulk.most room items :=
  List.length_take_of_le (Nat.findGreatest_le items.length)

end Session.Bulk

namespace Conversation

open Session

theorem takeAck_eq_most (limit : Nat) (c : Conversation) :
    c.takeAck limit =
      if Bulk.acks.most limit c.acksOwed = 0 then (none, c)
      else
        (some ⟨c.acksOwed.take (Bulk.acks.most limit c.acksOwed)⟩,
          { c with acksOwed := c.acksOwed.drop (Bulk.acks.most limit c.acksOwed) }) := by
  have part : fitting limit (fun _ => Ack.idLength) 0 Ack.baseLength c.acksOwed =
      c.acksOwed.take (Bulk.acks.most limit c.acksOwed) :=
    Bulk.acks.part_eq_take_most limit c.acksOwed
  have none := Bulk.acks.part_eq_nil_iff limit c.acksOwed
  rw [Bulk.part_eq_take_most] at none
  simp only [takeAck, part, List.isEmpty_iff, none, Bulk.length_take_most]

theorem takeBatch_eq_most (limit : Nat) (c : Conversation) :
    c.takeBatch limit =
      if Bulk.batches.most limit c.queued = 0 then (none, c)
      else
        let batch : Batch := ⟨c.queued.take (Bulk.batches.most limit c.queued)⟩
        (some batch,
          { c with
            queued := c.queued.drop (Bulk.batches.most limit c.queued)
            outstanding := c.outstanding ++ [(batch.id, batch)] }) := by
  have part : fitting limit Batch.messageLength 0 Batch.baseLength c.queued =
      c.queued.take (Bulk.batches.most limit c.queued) :=
    Bulk.batches.part_eq_take_most limit c.queued
  have none := Bulk.batches.part_eq_nil_iff limit c.queued
  rw [Bulk.part_eq_take_most] at none
  simp only [takeBatch_eq, part, List.isEmpty_iff, none, Bulk.length_take_most]

end Conversation

namespace Mailbox

open Session

/-- A mailbox takes as many queued messages from the front as fit in one record, and as many owed
    acknowledgements: the largest number whose record is encoded within the limit. They leave the
    front of their list, and a batch is put behind the outstanding ones under its name. If that
    number is zero nothing changes, and an unknown contact is a fault. Passing over the messages
    that are too long by their bytes alone makes no difference. -/
theorem takes_longest (m : Mailbox) (contact : ContactId) (limit : Nat) :
    match m.conversation? contact with
    | none =>
        m.takeBatch contact limit = (.error (.unknownContact contact), m) ∧
          m.takeAck contact limit = (.error (.unknownContact contact), m)
    | some c =>
        let messages := Nat.findGreatest
          (fun k => (Record.batch ⟨c.queued.take k⟩).encode.length ≤ limit) c.queued.length
        let ids := Nat.findGreatest
          (fun k => (Record.ack ⟨c.acksOwed.take k⟩).encode.length ≤ limit) c.acksOwed.length
        m.takeBatch contact limit =
            (if messages = 0 then (.ok none, m)
            else
              let batch : Batch := ⟨c.queued.take messages⟩
              (.ok (some batch), m.setConversation contact
                { c with
                  queued := c.queued.drop messages
                  outstanding := c.outstanding ++ [(batch.id, batch)] })) ∧
          m.takeAck contact limit =
            (if ids = 0 then (.ok none, m)
            else
              (.ok (some ⟨c.acksOwed.take ids⟩),
                m.setConversation contact { c with acksOwed := c.acksOwed.drop ids })) ∧
          fitting limit Batch.messageLength 0 Batch.baseLength (Batch.within limit 0 c.queued) =
            fitting limit Batch.messageLength 0 Batch.baseLength c.queued := by
  cases found : m.conversation? contact with
  | none => exact ⟨update_of_unknown found _, update_of_unknown found _⟩
  | some c =>
      have same := setConversation_of_conversation? found
      have messages := update_of_conversation? found (·.takeBatch limit)
      have ids := update_of_conversation? found (·.takeAck limit)
      rw [Conversation.takeBatch_eq_most] at messages
      rw [Conversation.takeAck_eq_most] at ids
      refine ⟨messages.trans ?_, ids.trans ?_, Batch.fitting_within limit 0 (Nat.zero_le _) _⟩
      · by_cases none : Bulk.batches.most limit c.queued = 0
        · rw [if_pos none, same]
          exact (if_pos none).symm
        · rw [if_neg none]
          exact (if_neg none).symm
      · by_cases none : Bulk.acks.most limit c.acksOwed = 0
        · rw [if_pos none, same]
          exact (if_pos none).symm
        · rw [if_neg none]
          exact (if_neg none).symm

end Mailbox

end Courier
