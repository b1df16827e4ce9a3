import Courier.Proofs.Cbor
import Courier.Record.Decode

/-! # Records are read back

What the reader makes of the encoding of a record is that record, for every
transport map, list of identifiers or messages, and version. The only condition
is that the lengths and counts in it are below 2^64, as those of all that fits
in a memory or in a frame are.
-/

namespace Courier

theorem utf8_inj {first second : String} (same : utf8 first = utf8 second) : first = second := by
  have read := ofUtf8?_utf8 first
  rw [same, ofUtf8?_utf8 second] at read
  exact (Option.some.inj read).symm

theorem utf8_eq_iff (first second : String) : utf8 first = utf8 second ↔ first = second :=
  ⟨utf8_inj, congrArg utf8⟩

namespace Cbor

/-! ## Countable lists

A length or count below 2^64 fits in a head. An item that is short enough has
short enough parts.
-/

/-- The length fits in a head, as that of every list in a memory does. -/
def Countable {α : Type} (values : List α) : Prop :=
  values.length < UInt64.size

/-- The keys and their number fit in heads, and each value has the property. -/
structure CountableTable {α : Type} (property : α → Prop) (t : Table String α) : Prop where
  count : Countable t.entries
  keys : ∀ entry ∈ t.entries, Countable (utf8 entry.1)
  values : ∀ entry ∈ t.entries, property entry.2

variable {α : Type} {write : α → Bytes}

namespace Countable

theorem left {bytes more : Bytes} (countable : Countable (bytes ++ more)) : Countable bytes := by
  simp only [Countable, List.length_append] at countable ⊢
  omega

theorem right {bytes more : Bytes} (countable : Countable (bytes ++ more)) : Countable more := by
  simp only [Countable, List.length_append] at countable ⊢
  omega

theorem of_mem_flatMap {values : List α} {value : α} (countable : Countable (values.flatMap write))
    (member : value ∈ values) : Countable (write value) := by
  obtain ⟨before, after, rfl⟩ := List.append_of_mem member
  rw [List.flatMap_append, List.flatMap_cons] at countable
  exact countable.right.left

/-- Items take a byte or more, so their number is at most the number of bytes. -/
theorem of_flatMap {values : List α} (some : ∀ value ∈ values, write value ≠ [])
    (countable : Countable (values.flatMap write)) : Countable values := by
  refine Nat.lt_of_le_of_lt ?_ countable
  clear countable
  induction values with
  | nil => exact Nat.le_refl 0
  | cons value values ih =>
      have first := List.length_pos_iff.mpr (some value (List.mem_cons_self ..))
      have rest := ih fun other member => some other (List.mem_cons_of_mem _ member)
      rw [List.length_cons, List.flatMap_cons, List.length_append]
      omega

end Countable

theorem write_ne_nil (kind : Kind) (n : Nat) : kind.write n ≠ [] := by
  simp only [Kind.write]
  repeat' split
  all_goals exact List.cons_ne_nil _ _

theorem byteString_ne_nil (content : Bytes) : byteString content ≠ [] := by
  simp [byteString, write_ne_nil]

theorem Countable.table {property : α → Prop} {t : Table String α}
    (countable : Countable (table write t)) (parts : ∀ a, Countable (write a) → property a) :
    CountableTable property t where
  count := countable.right.of_flatMap fun entry _ => by simp [Cbor.text, write_ne_nil]
  keys := fun entry member => (countable.right.of_mem_flatMap member).left.right
  values := fun entry member => parts entry.2 (countable.right.of_mem_flatMap member).right

/-- A map that was written is read as the table that it was made of. -/
theorem Reads.table {property : α → Prop} {value : Reader α} {t : Table String α}
    (countable : CountableTable property t)
    (reads : ∀ a, property a → Reads value (write a) a) :
    Reads (Record.tagWith Table.ofList (map? text? value)) (Cbor.table write t) t := by
  intro rest
  have entries : Reads (map? text? value) (Cbor.table write t) t.entries := by
    refine .map countable.count fun entry member => ?_
    exact .pair (reads_text (countable.keys entry member))
      (reads entry.2 (countable.values entry member))
  simp [Record.tagWith, entries rest, Table.ofList_entries]

end Cbor

namespace Record

open Cbor

variable {α β : Type}

/-! ## Contents -/

theorem Reads.tagWith (tag : α → β) {value : Reader α} {bytes : Bytes} {a : α}
    (reads : Reads value bytes a) : Reads (tagWith tag value) bytes (tag a) := by
  intro rest
  simp [Record.tagWith, reads rest]

theorem reads_field (known : Bytes → Option (Reader α)) {name : String} {value : Reader α}
    {bytes : Bytes} {a : α} (named : known (utf8 name) = some value)
    (brief : (utf8 name).length ≤ maxNameLength) (reads : Reads value bytes a) :
    Reads (field? known) (text name ++ bytes) (some a) := by
  intro rest
  rw [List.append_assoc]
  simp [field?, reads_name brief _, named, reads rest]

theorem reads_fields {known : Bytes → Option (Reader α)} {count : Nat} {bytes : Bytes}
    {fields : List (Option α)} (fits : count < UInt64.size)
    (reads : Reads (many? (field? known) count) bytes fields) :
    Reads (fields? known) (Kind.map.write count ++ bytes) (fields.filterMap id) := by
  intro rest
  rw [fields?, List.append_assoc, itemHead?_write .map fits]
  simp [Kind.head, collection?, reads rest]

theorem reads_oneField {name : String} {value : Reader α} {bytes : Bytes} {a : α}
    (brief : (utf8 name).length ≤ maxNameLength) (reads : Reads value bytes a) :
    Reads (oneField? name value) (Kind.map.write 1 ++ (text name ++ bytes)) a := by
  intro rest
  have field := reads_field (fun found => if found = utf8 name then some value else none)
    (if_pos rfl) brief reads
  rw [oneField?, reads_fields (by decide) field.one rest]
  rfl

theorem reads_twoFields {firstName secondName : String} {first : Reader α} {second : Reader β}
    {bytes more : Bytes} {a : α} {b : β} (brief : (utf8 firstName).length ≤ maxNameLength)
    (secondBrief : (utf8 secondName).length ≤ maxNameLength) (different : secondName ≠ firstName)
    (reads : Reads first bytes a) (secondReads : Reads second more b) :
    Reads (twoFields? firstName secondName first second)
      (Kind.map.write 2 ++ ((text firstName ++ bytes) ++ (text secondName ++ more))) (a, b) := by
  intro rest
  let known : Bytes → Option (Reader (α ⊕ β)) := fun found =>
    if found = utf8 firstName then some (Record.tagWith Sum.inl first)
    else if found = utf8 secondName then some (Record.tagWith Sum.inr second)
    else none
  have named : known (utf8 secondName) = some (Record.tagWith Sum.inr second) := by
    simp [known, utf8_eq_iff, different]
  have field := reads_field known (if_pos rfl) brief (Reads.tagWith _ reads)
  have secondField := reads_field known named secondBrief (Reads.tagWith _ secondReads)
  have fields := reads_fields (by decide) (field.two secondField) rest
  rw [twoFields?, fields]
  rfl

/-! ## Records -/

/-- A record is read as its content, after the name of its variant. -/
theorem reads_tagged {variant : String} {content : Reader Record} {count : Nat} {fields : Bytes}
    {record : Record} (brief : (utf8 variant).length ≤ maxNameLength)
    (named : content? (utf8 variant) = content)
    (reads : Reads content (Kind.map.write count ++ fields) record) :
    Reads record? (tagged variant count fields) record := by
  intro rest
  have name := reads_name brief (Kind.map.write count ++ fields ++ rest)
  rw [tagged, List.append_assoc, List.append_assoc, List.append_assoc, record?,
    itemHead?_write .map (by decide), ← List.append_assoc (Kind.map.write count)]
  simp only [Kind.head, ← List.append_assoc] at name ⊢
  rw [List.append_assoc (text variant), List.append_assoc (text variant)] at name ⊢
  rw [name]
  simp only [Option.bind_eq_bind, Option.bind_some, named]
  exact reads rest

private theorem reads_version (version : UInt64) :
    Reads version? (Kind.unsigned.write version.toNat) version := by
  have plain : Reads (unsigned? (UInt64.size - 1)) (Kind.unsigned.write version.toNat)
      version.toNat :=
    reads_unsigned version.toNat_lt (Nat.le_pred_of_lt version.toNat_lt)
  have tagged := Reads.tagWith UInt64.ofNat plain
  rwa [UInt64.ofNat_toNat] at tagged

private theorem reads_identifier (id : Identifier) :
    Reads identifier? (byteString id.bytes) id := by
  have fits : id.bytes.length < UInt64.size := by
    rw [id.length_eq]
    decide
  intro rest
  have known : Identifier.ofBytes? id.bytes = some id := by simp [Identifier.ofBytes?, id.length_eq]
  simp [identifier?, reads_byteString fits rest, known]

/-- Every length and count in the record fits in a head, as in every record in a memory. -/
def Countable : Record → Prop
  | transportUpdate update =>
      CountableTable (CountableTable fun value => Cbor.Countable (utf8 value)) update.transports
  | subscriptionUpdate update => Cbor.Countable update.groups
  | ack ⟨batchIds⟩ => Cbor.Countable batchIds
  | batch ⟨messages⟩ => Cbor.Countable messages ∧ ∀ message ∈ messages, Cbor.Countable message

/-- What is shorter than 2^64 bytes has no longer parts. -/
theorem countable_of_encode {record : Record} (countable : Cbor.Countable record.encode) :
    record.Countable := by
  cases record with
  | transportUpdate update =>
      exact countable.right.left.left.right.table fun _ inner =>
        inner.table fun _ text => text.right
  | subscriptionUpdate update =>
      exact countable.right.left.left.right.right.of_flatMap fun id _ => byteString_ne_nil id.bytes
  | ack ack =>
      exact countable.right.right.right.of_flatMap fun id _ => byteString_ne_nil id.bytes
  | batch batch =>
      have items := countable.right.right.right
      exact ⟨items.of_flatMap fun message _ => byteString_ne_nil message,
        fun message member => (items.of_mem_flatMap member).right⟩

private theorem reads_identifiers {ids : List Identifier} (countable : Cbor.Countable ids) :
    Reads (list? identifier?) (list (fun id => byteString id.bytes) ids) ids :=
  .list countable fun id _ => reads_identifier id

theorem reads_encode {record : Record} (countable : record.Countable) :
    Reads record? record.encode record := by
  cases record with
  | transportUpdate update =>
      obtain ⟨transports, version⟩ := update
      have map : Reads transports? (table (table text) transports) transports :=
        .table countable fun _ inner => .table inner fun _ => reads_text
      rw [encode, List.append_assoc (text "transports" ++ table (table text) transports)]
      refine reads_tagged (by decide +kernel) (by rw [content?, if_pos rfl]) ?_
      exact Reads.tagWith _ (reads_twoFields (by decide +kernel) (by decide +kernel) (by decide) map
        (reads_version version))
  | subscriptionUpdate update =>
      obtain ⟨groups, version⟩ := update
      have ids : Reads _ _ groups := reads_identifiers countable
      rw [encode, List.append_assoc (text "groups" ++ list (fun id => byteString id.bytes) groups)]
      refine reads_tagged (by decide +kernel) (by simp [content?, utf8_eq_iff]; rfl) ?_
      exact Reads.tagWith _ (reads_twoFields (by decide +kernel) (by decide +kernel) (by decide) ids
        (reads_version version))
  | ack ack =>
      obtain ⟨batchIds⟩ := ack
      have ids : Reads _ _ batchIds := reads_identifiers countable
      refine reads_tagged (by decide +kernel) (by simp [content?, utf8_eq_iff]; rfl) ?_
      exact Reads.tagWith _ (reads_oneField (by decide +kernel) ids)
  | batch batch =>
      obtain ⟨messages⟩ := batch
      have all : Reads (list? bytes?) (list byteString messages) messages :=
        .list countable.1 fun message member => reads_byteString (countable.2 message member)
      refine reads_tagged (by decide +kernel) (by simp [content?, utf8_eq_iff]; rfl) ?_
      exact Reads.tagWith _ (reads_oneField (by decide +kernel) all)

/-- Decoding undoes encoding. -/
theorem decode_encode_of_countable {record : Record} (countable : record.Countable) :
    decode record.encode = .ok record := by
  have read := reads_encode countable []
  rw [List.append_nil] at read
  rw [decode, read]

theorem decode_encode {record : Record} (short : record.encode.length < UInt64.size) :
    decode record.encode = .ok record :=
  decode_encode_of_countable (countable_of_encode short)

/-- Records that are encoded alike are equal. -/
theorem encode_inj {first second : Record} (countable : first.Countable)
    (also : second.Countable) (same : first.encode = second.encode) : first = second := by
  have read := decode_encode_of_countable countable
  rw [same, decode_encode_of_countable also] at read
  exact (Except.ok.inj read).symm

end Record

end Courier
