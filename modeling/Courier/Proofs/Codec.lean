import Courier.Proofs.Extent
import Courier.Proofs.Mailbox.Custody
import Courier.Proofs.Session.Packing

/-! # The codec loses nothing

A record is told by its encoding, and by whatever other bytes are read as it:
encoding it again leads back to it. So a batch has one name, at its sender and
at everyone who reads it.
-/

namespace Courier

/-- A batch that was taken fits, and it is outstanding under its name. -/
theorem Conversation.outstanding_of_takeBatch {limit : Nat} {c c' : Conversation} {batch : Batch}
    (taken : c.takeBatch limit = (some batch, c')) :
    (Record.batch batch).encode.length ≤ limit ∧
      c'.outstanding = c.outstanding ++ [(batch.id, batch)] := by
  simp only [takeBatch_eq] at taken
  split at taken
  · cases taken
  next some =>
    obtain ⟨same, rfl⟩ := Prod.mk.inj taken
    obtain rfl := Option.some.inj same
    have messages : Session.Bulk.batches.part limit c.queued ≠ [] := fun none =>
      some (List.isEmpty_iff.mpr none)
    exact ⟨Session.Bulk.length_part_le messages, rfl⟩

theorem Conversation.mem_seen_receive (batch : Batch) (c : Conversation) :
    batch.id ∈ (c.receive (.batch batch)).seen := by
  rw [receive_batch]
  by_cases known : batch.id ∈ c.seen
  · exact List.mem_append_right _ known
  · simp [known]

namespace Record

/-- Every record is read back from its encoding, which no other record has. Whatever bytes are read
    as a record, its encoding is read as the same one. And the name under which a sender keeps a
    batch is the name that the recipient sees and owes. -/
theorem encode_lossless :
    (∀ record : Record, record.Countable → decode record.encode = .ok record ∧
      ∀ rest, record? (record.encode ++ rest) = some (record, rest)) ∧
    (∀ first second : Record, first.Countable → second.Countable →
      (first.encode = second.encode ↔ first = second)) ∧
    (∀ (bytes : Bytes) (record : Record), Cbor.Countable bytes → decode bytes = .ok record →
      record.Countable ∧ decode record.encode = .ok record) ∧
    ∀ (limit : Nat) (sender sender' : Conversation) (batch : Batch), limit < UInt64.size →
      sender.takeBatch limit = (some batch, sender') →
      ∃ arrived, decode (Record.batch batch).encode = .ok (.batch arrived) ∧
        sender'.outstanding = sender.outstanding ++ [(arrived.id, batch)] ∧
        ∀ recipient : Conversation, arrived.id ∈ (recipient.receive (.batch arrived)).seen ∧
          arrived.id ∈ (recipient.receive (.batch arrived)).acksOwed := by
  refine ⟨fun record countable => ?_, fun first second countable also => ?_,
    fun bytes record countable read => ?_, fun limit sender sender' batch small taken => ?_⟩
  · exact ⟨decode_encode_of_countable countable, reads_encode countable⟩
  · exact ⟨encode_inj countable also, congrArg encode⟩
  · have kept := countable_of_decode countable read
    exact ⟨kept, decode_encode_of_countable kept⟩
  · obtain ⟨fits, outstanding⟩ := Conversation.outstanding_of_takeBatch taken
    refine ⟨batch, decode_encode (Nat.lt_of_le_of_lt fits small), outstanding, fun recipient => ?_⟩
    obtain ⟨-, -, owed⟩ := recipient.owed_receive_batch batch
    exact ⟨recipient.mem_seen_receive batch, (owed batch.id).mpr (.inl rfl)⟩

/-- An update with a letter of two bytes, and a batch that is read from a bare variant with an
    unknown field and a message in two segments, and then sent. -/
theorem encode_lossless_segments :
    let update : Record := .transportUpdate
      ⟨.ofList [("é", .ofList [("", "x"), ("a", "")]), ("", .empty)], 18446744073709551615⟩
    let batch : Batch := ⟨[[7, 8]]⟩
    let bytes : Bytes := Cbor.text "Batch" ++ Cbor.Kind.map.write 2 ++ Cbor.text "new" ++ [0xf6] ++
      Cbor.text "messages" ++ Cbor.Kind.array.write 1 ++ [0x5f, 0x41, 7, 0x41, 8, 0xff]
    let sender : Conversation := { role := .alice, lanes := .empty, queued := [[7, 8], [9]] }
    decode update.encode = .ok update ∧ update.encode ≠ (Record.batch batch).encode ∧
      bytes ≠ (Record.batch batch).encode ∧ decode bytes = .ok (.batch batch) ∧
      decode (Record.batch batch).encode = .ok (.batch batch) ∧
      (sender.takeBatch 22).1 = some batch ∧
      (sender.takeBatch 22).2.outstanding.map (·.1) = [batch.id] := by
  intro update batch bytes sender
  have countable : update.Countable :=
    countable_of_encode (show update.encode.length < UInt64.size by decide +kernel)
  have also : (Record.batch batch).Countable :=
    countable_of_encode (show (Record.batch batch).encode.length < UInt64.size by decide +kernel)
  have read : decode bytes = .ok (.batch batch) := by decide +kernel
  have taken : (sender.takeBatch 22).1 = some batch := by decide +kernel
  obtain ⟨readBack, exact, again, names⟩ := encode_lossless
  obtain ⟨arrived, returned, outstanding, -⟩ :=
    names 22 sender (sender.takeBatch 22).2 batch (by decide) (Prod.ext taken rfl)
  refine ⟨(readBack update countable).1, fun same => ?_, by decide +kernel, read,
    (again bytes _ (show bytes.length < UInt64.size by decide +kernel) read).2, taken, ?_⟩
  · exact absurd ((exact update _ countable also).mp same) (by decide +kernel)
  · rw [(readBack _ also).1] at returned
    cases returned
    rw [outstanding]
    rfl

end Record

end Courier
