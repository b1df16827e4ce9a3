import Courier.Cbor.Read
import Courier.Proofs.Bytes
import Courier.Proofs.Table
import Courier.Record.Encode

/-! # Items are read back

Each reader of expected items gives back what the matching writer wrote, and
leaves alone what follows. The readers accept much more than what is written
here; of that nothing is said. Arguments of heads are below 2^64, which holds of
everything inside an item that is itself no longer than that.
-/

namespace Courier

theorem ofUtf8?_utf8 (text : String) : ofUtf8? (utf8 text) = some text := by
  have bytes : ByteArray.mk (utf8 text).toArray = text.toByteArray := by
    simp [utf8]
  rw [ofUtf8?, bytes, String.fromUTF8?, dif_pos text.isValidUTF8]
  rfl

namespace Cbor

/-! ## Heads -/

theorem take?_append (front rest : Bytes) :
    take? front.length (front ++ rest) = some (front, rest) := by
  simp [take?]

theorem number?_bigEndian (width : Nat) {n : Nat} (fits : n < 256 ^ width) (rest : Bytes) :
    number? width (bigEndian width n ++ rest) = some (n, rest) := by
  have taken := take?_append (bigEndian width n) rest
  rw [length_bigEndian] at taken
  simp only [number?, taken, Option.map_some, ofBigEndian_bigEndian_of_lt fits]

private theorem head?_cons (kind : Kind) {info n : Nat} {bytes rest : Bytes} (small : info < 32)
    (argument : argument? info bytes = some (some n, rest)) :
    head? (UInt8.ofNat (32 * kind.bits + info) :: bytes) = some (kind.head n, rest) := by
  have bits : kind.bits ≤ 5 := by cases kind <;> decide
  have first : (UInt8.ofNat (32 * kind.bits + info)).toNat = 32 * kind.bits + info := by
    rw [UInt8.toNat_ofNat']
    omega
  have low : (32 * kind.bits + info) % 32 = info := by omega
  have high : (32 * kind.bits + info) / 32 = kind.bits := by omega
  simp only [head?, first, low, high, argument]
  cases kind <;> rfl

/-- The shortest head is read as that head. -/
theorem head?_write (kind : Kind) {n : Nat} (fits : n < UInt64.size) (rest : Bytes) :
    head? (kind.write n ++ rest) = some (kind.head n, rest) := by
  simp only [UInt64.size] at fits
  simp only [Kind.write, UInt8.size, UInt16.size, UInt32.size]
  split
  next tiny => exact head?_cons kind (by omega) (by simp [argument?, tiny])
  · split
    next byte =>
      refine head?_cons kind (by omega) ?_
      simp [argument?, number?_bigEndian 1 (n := n) (by omega)]
    · split
      next short =>
        refine head?_cons kind (by omega) ?_
        simp [argument?, number?_bigEndian 2 (n := n) (by omega)]
      · split
        next word =>
          refine head?_cons kind (by omega) ?_
          simp [argument?, number?_bigEndian 4 (n := n) (by omega)]
        · refine head?_cons kind (by omega) ?_
          simp [argument?, number?_bigEndian 8 (n := n) (by omega)]

/-- No tag is in front of a head that was written. -/
theorem itemHead?_write (kind : Kind) {n : Nat} (fits : n < UInt64.size) (rest : Bytes) :
    itemHead? (kind.write n ++ rest) = some (kind.head n, rest) := by
  rw [itemHead?, head?_write kind fits]
  cases kind <;> rfl

/-! ## Items -/

/-- In front of any bytes, the reader takes `bytes` for `value`. -/
def Reads {α : Type} (reader : Reader α) (bytes : Bytes) (value : α) : Prop :=
  ∀ rest, reader (bytes ++ rest) = some (value, rest)

variable {α β : Type}

theorem Reads.pair {first : Reader α} {second : Reader β} {bytes more : Bytes} {a : α} {b : β}
    (reads : Reads first bytes a) (also : Reads second more b) :
    Reads (pair? first second) (bytes ++ more) (a, b) := by
  intro rest
  simp [pair?, List.append_assoc, reads (more ++ rest), also rest]

theorem Reads.one {item : Reader α} {bytes : Bytes} {a : α} (reads : Reads item bytes a) :
    Reads (many? item 1) bytes [a] := by
  intro rest
  rw [many?, reads]
  rfl

theorem Reads.two {item : Reader α} {bytes more : Bytes} {a b : α} (reads : Reads item bytes a)
    (also : Reads item more b) : Reads (many? item 2) (bytes ++ more) [a, b] := by
  intro rest
  rw [many?, List.append_assoc, reads]
  have others := also.one rest
  simp only [Option.bind_eq_bind, Option.bind_some]
  rw [others]
  rfl

theorem Reads.many {item : Reader α} {write : α → Bytes} {values : List α}
    (reads : ∀ value ∈ values, Reads item (write value) value) :
    Reads (many? item values.length) (values.flatMap write) values := by
  induction values with
  | nil => exact fun rest => rfl
  | cons value values ih =>
      intro rest
      have first := reads value (List.mem_cons_self ..)
      have others := ih fun other member => reads other (List.mem_cons_of_mem _ member)
      rw [List.flatMap_cons, List.append_assoc, List.length_cons, many?, first]
      simp [others rest]

theorem Reads.map {key : Reader α} {value : Reader β} {write : α × β → Bytes}
    {entries : List (α × β)} (count : entries.length < UInt64.size)
    (reads : ∀ entry ∈ entries, Reads (pair? key value) (write entry) entry) :
    Reads (map? key value) (Kind.map.write entries.length ++ entries.flatMap write) entries := by
  intro rest
  rw [map?, List.append_assoc, itemHead?_write .map count]
  exact Reads.many reads rest

theorem Reads.list {item : Reader α} {write : α → Bytes} {values : List α}
    (count : values.length < UInt64.size)
    (reads : ∀ value ∈ values, Reads item (write value) value) :
    Reads (list? item) (Cbor.list write values) values := by
  intro rest
  rw [list?, Cbor.list, List.append_assoc, itemHead?_write .array count]
  exact Reads.many reads rest

private theorem string?_append {kind : Kind} {valid : Bytes → Bool} {content : Bytes}
    (accepted : valid content = true) (rest : Bytes) :
    string? kind valid (some content.length) (content ++ rest) = some (content, rest) := by
  simp [string?, take?_append, accepted]

theorem isText_utf8 (value : String) : isText (utf8 value) = true := by
  rw [isText, ofUtf8?_utf8]
  rfl

theorem reads_text {value : String} (fits : (utf8 value).length < UInt64.size) :
    Reads text? (text value) value := by
  intro rest
  rw [text?, text, List.append_assoc, itemHead?_write .text fits]
  simp [Kind.head, string?_append (isText_utf8 value), ofUtf8?_utf8]

theorem reads_byteString {content : Bytes} (fits : content.length < UInt64.size) :
    Reads bytes? (byteString content) content := by
  intro rest
  rw [bytes?, byteString, List.append_assoc, itemHead?_write .bytes fits]
  exact string?_append rfl rest

theorem reads_name {value : String} (fits : (utf8 value).length ≤ maxNameLength) :
    Reads name? (text value) (utf8 value) := by
  intro rest
  have small : (utf8 value).length < UInt64.size :=
    Nat.lt_of_le_of_lt fits (by decide)
  rw [name?, text, List.append_assoc, itemHead?_write .text small]
  simp [Kind.head, nameContent?, fits, string?_append (isText_utf8 value)]

theorem reads_unsigned {n limit : Nat} (fits : n < UInt64.size) (allowed : n ≤ limit) :
    Reads (unsigned? limit) (Kind.unsigned.write n) n := by
  intro rest
  rw [unsigned?, head?_write .unsigned fits]
  simp [Kind.head, allowed]

end Cbor

end Courier
