import Courier.Cbor.Skip
import Courier.Record.Encode

/-! # Reading a record

The reader takes more than the writer makes: lengths of any form, strings in
segments, tags in front of items, identifiers and messages as lists of numbers,
unknown fields, and a bare variant followed by its content. Fields may come in
any order, but each known one exactly once. Bytes after the record are left
alone.
-/

namespace Courier.Record

open Cbor

/-- Levels that the value of an unknown field may nest, inside the record and its content. -/
def maxSkipLevels : Nat := 254

/-- One field of a content: its value if `known` tells how to read a field of this name, nothing if
    the field is passed over. -/
def field? {α : Type} (known : (name : Bytes) → Option (Reader α)) : Reader (Option α) :=
  fun bytes => do
    let (name, rest) ← name? bytes
    match known name with
    | some value => (value rest).map fun (value, rest) => (some value, rest)
    | none => (skip? maxSkipLevels rest).map fun (_, rest) => (none, rest)

/-- The known fields of a content, in order. -/
def fields? {α : Type} (known : (name : Bytes) → Option (Reader α)) : Reader (List α) :=
  fun bytes =>
    match itemHead? bytes with
    | some (.map count, rest) =>
        (collection? (field? known) count rest).map fun (fields, rest) =>
          (fields.filterMap id, rest)
    | _ => none

/-- The single value of a field that must occur exactly once. -/
def only? {α : Type} : List α → Option α
  | [value] => some value
  | _ => none

/-- The values of two fields that must occur exactly once, in any order. -/
def both? {α β : Type} : List (α ⊕ β) → Option (α × β)
  | [.inl a, .inr b] | [.inr b, .inl a] => some (a, b)
  | _ => none

/-- A content with one known field. -/
def oneField? {α : Type} (name : String) (value : Reader α) : Reader α := fun bytes => do
  let (fields, rest) ← fields? (fun found => if found = utf8 name then some value else none) bytes
  let value ← only? fields
  return (value, rest)

/-- A reader of the left or right of two kinds of values. -/
def tagWith {α β : Type} (tag : α → β) (value : Reader α) : Reader β := fun bytes =>
  (value bytes).map fun (value, rest) => (tag value, rest)

/-- A content with two known fields. -/
def twoFields? {α β : Type} (firstName secondName : String) (first : Reader α)
    (second : Reader β) : Reader (α × β) := fun bytes => do
  let (fields, rest) ← fields?
    (fun found =>
      if found = utf8 firstName then some (tagWith Sum.inl first)
      else if found = utf8 secondName then some (tagWith Sum.inr second)
      else none)
    bytes
  let values ← both? fields
  return (values, rest)

/-- A version: any 64-bit number. -/
def version? : Reader UInt64 := tagWith UInt64.ofNat (unsigned? (UInt64.size - 1))

/-- A byte string of 32 bytes. -/
def identifier? : Reader Identifier := fun bytes => do
  let (content, rest) ← bytes? bytes
  let id ← Identifier.ofBytes? content
  return (id, rest)

/-- The transports of an update. The last of several entries with one key counts. -/
def transports? : Reader (Table String (Table String String)) :=
  tagWith Table.ofList (map? text? (tagWith Table.ofList (map? text? text?)))

/-- The content of a record of a named variant. -/
def content? (variant : Bytes) : Reader Record :=
  if variant = utf8 "TransportUpdate" then
    tagWith (fun (transports, version) => .transportUpdate ⟨transports, version⟩)
      (twoFields? "transports" "version" transports? version?)
  else if variant = utf8 "SubscriptionUpdate" then
    tagWith (fun (groups, version) => .subscriptionUpdate ⟨groups, version⟩)
      (twoFields? "groups" "version" (list? identifier?) version?)
  else if variant = utf8 "Ack" then
    tagWith (fun ids => .ack ⟨ids⟩) (oneField? "batch_ids" (list? identifier?))
  else if variant = utf8 "Batch" then
    tagWith (fun messages => .batch ⟨messages⟩) (oneField? "messages" (list? bytes?))
  else
    fun _ => none

/-- A record: a map of one pair, or a bare variant followed by its content. -/
def record? : Reader Record := fun bytes =>
  match itemHead? bytes with
  | some (.map (some 1), rest) => do
      let (variant, rest) ← name? rest
      content? variant rest
  | some (.text length, rest) => do
      let (variant, rest) ← nameContent? (.text length) rest
      content? variant rest
  | _ => none

/-- The record at the front of `bytes`. -/
def decode (bytes : Bytes) : Except RecordFault Record :=
  match record? bytes with
  | some (record, _) => .ok record
  | none => .error (.decode "not a record")

end Courier.Record
