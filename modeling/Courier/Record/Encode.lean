import Courier.Cbor.Head
import Courier.Hash.Digest
import Courier.Record.Basic

/-! # The bytes of a record

A record is a map of one pair, its variant and its content; the content is a
map of the fields in a fixed order. Lengths and counts are as short as
possible, and the keys of maps ascend, so a record has one encoding. The length
of a batch or an acknowledgement grows with every part, which is what packing
relies on.
-/

namespace Courier

namespace Cbor

def text (value : String) : Bytes :=
  let content := utf8 value
  Kind.text.write content.length ++ content

def byteString (content : Bytes) : Bytes :=
  Kind.bytes.write content.length ++ content

def list {α : Type} (item : α → Bytes) (values : List α) : Bytes :=
  Kind.array.write values.length ++ values.flatMap item

/-- A map with keys in ascending order, as an item. -/
def table {α : Type} (value : α → Bytes) (t : Table String α) : Bytes :=
  Kind.map.write t.entries.length ++ t.entries.flatMap fun entry => text entry.1 ++ value entry.2

end Cbor

namespace Record

open Cbor

/-- The variant of a record, with its content after it. -/
def tagged (variant : String) (fieldCount : Nat) (fields : Bytes) : Bytes :=
  Kind.map.write 1 ++ text variant ++ Kind.map.write fieldCount ++ fields

def encode : Record → Bytes
  | transportUpdate update =>
      tagged "TransportUpdate" 2
        (text "transports" ++ table (table text) update.transports ++
          text "version" ++ Kind.unsigned.write update.version.toNat)
  | subscriptionUpdate update =>
      tagged "SubscriptionUpdate" 2
        (text "groups" ++ list (fun id => byteString id.bytes) update.groups ++
          text "version" ++ Kind.unsigned.write update.version.toNat)
  | ack ⟨batchIds⟩ =>
      tagged "Ack" 1 (text "batch_ids" ++ list (fun id => byteString id.bytes) batchIds)
  | batch ⟨messages⟩ =>
      tagged "Batch" 1 (text "messages" ++ list byteString messages)

end Record

/-- What names a batch: the first 32 bytes of the double digest of its record. -/
def Batch.id (batch : Batch) : BatchId :=
  ⟨(doubleDigest (Record.batch batch).encode).take identifierLength,
    by simp [identifierLength, Digest.length]⟩

/-- Bytes of an empty acknowledgement without the count of its batches. -/
def Ack.baseLength : Nat :=
  (Record.tagged "Ack" 1 (Cbor.text "batch_ids")).length

/-- Bytes that each batch adds to an acknowledgement. -/
def Ack.idLength : Nat :=
  Cbor.headLength identifierLength + identifierLength

/-- Bytes of an empty batch without the count of its messages. -/
def Batch.baseLength : Nat :=
  (Record.tagged "Batch" 1 (Cbor.text "messages")).length

/-- Bytes that a message adds to a batch. -/
def Batch.messageLength (message : Bytes) : Nat :=
  Cbor.headLength message.length + message.length

/-- The items at the front that fit within `limit` bytes, when `count` items before them and what
    surrounds the list take `used` bytes, and each item takes `size` more. -/
def fitting {α : Type} (limit : Nat) (size : α → Nat) : (count used : Nat) → List α → List α
  | _, _, [] => []
  | count, used, item :: items =>
      if used + size item + Cbor.headLength (count + 1) ≤ limit then
        item :: fitting limit size (count + 1) (used + size item) items
      else
        []

/-- The messages at the front whose bytes are within `limit`, together with the `used` bytes of those
    before them. No record is shorter than the messages in it, so no others need be tried. -/
def Batch.within (limit : Nat) : (used : Nat) → List Bytes → List Bytes
  | _, [] => []
  | used, message :: messages =>
      if used + message.length ≤ limit then
        message :: within limit (used + message.length) messages
      else
        []

/-- Messages that need not be tried would not fit. -/
theorem Batch.fitting_within (limit count : Nat) {used bytes : Nat} (less : bytes ≤ used)
    (messages : List Bytes) :
    fitting limit messageLength count used (within limit bytes messages) =
      fitting limit messageLength count used messages := by
  induction messages generalizing count used bytes with
  | nil => rfl
  | cons message messages ih =>
      have atLeast : message.length ≤ messageLength message := Nat.le_add_left ..
      simp only [within]
      split
      next =>
        simp only [fitting]
        rw [ih (count + 1) (Nat.add_le_add less atLeast)]
      next large =>
        have tooLong :
            ¬ used + messageLength message + Cbor.headLength (count + 1) ≤ limit := by omega
        simp only [fitting, if_neg tooLong]

end Courier
