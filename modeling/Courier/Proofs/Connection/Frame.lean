import Courier.Connection.Frame
import Courier.Proofs.Symmetric.CounterMode

/-! # The bytes of frames

Headers and sealed parts have one spelling each, so a frame is determined by
its number, payload and mark, and these by the frame. A connection is complete
if exactly its last frame is marked as final.
-/

namespace Courier

namespace Frame

/-! ## Nonces -/

theorem Part.mark_inj {part other : Part} (same : part.mark = other.mark) : part = other := by
  cases part <;> cases other <;> first | rfl | cases same

/-- Under one key, number and part of a frame can be read off the nonce. -/
theorem nonce_inj {number other : Nat} {part otherPart : Part} (range : number ≤ maxNumber)
    (otherRange : other ≤ maxNumber) (same : nonce number part = nonce other otherPart) :
    number = other ∧ part = otherPart := by
  obtain ⟨numbers, marks⟩ := List.append_inj same (by simp)
  simp only [maxNumber, maxContext] at range otherRange
  refine ⟨bigEndian_inj (by omega) (by omega) numbers, Part.mark_inj ?_⟩
  simpa using marks

/-! ## Headers -/

theorem Flags.ofByte?_eq_some_iff (byte : UInt8) (flags : Flags) :
    ofByte? byte = some flags ↔ byte = flags.toByte := by
  obtain ⟨final⟩ := flags
  by_cases zero : byte = 0
  · cases final <;> simp [ofByte?, toByte, zero, empty]
  · by_cases one : byte = 1
    · cases final <;> simp [ofByte?, toByte, one, finalFrame]
    · cases final <;> simp [ofByte?, toByte, zero, one]

@[simp] theorem Header.length_encode (header : Header) : header.encode.length = headerLength := by
  simp [encode, headerLength]

/-- Four bytes are a header exactly if that header is spelled so. -/
theorem Header.decode_eq_ok_iff (bytes : Bytes) (header : Header) :
    decode bytes = .ok header ↔ bytes = header.encode := by
  obtain ⟨length, flags⟩ := header
  constructor
  · intro decoded
    simp only [decode] at decoded
    split at decoded
    next high low mark =>
      split at decoded
      next known =>
        simp only [Except.ok.injEq, Header.mk.injEq] at decoded
        obtain ⟨rfl, rfl⟩ := decoded
        have fits : ofBigEndian [high, low] < UInt16.size :=
          Nat.lt_of_lt_of_eq (ofBigEndian_lt [high, low]) (by simp [UInt16.size])
        have spelled : bigEndian 2 (ofBigEndian [high, low]) = [high, low] :=
          bigEndian_ofBigEndian [high, low]
        rw [encode, UInt16.toNat_ofNat_of_lt' fits, spelled,
          (Flags.ofByte?_eq_some_iff mark _).mp known]
        rfl
      · cases decoded
    · cases decoded
  · rintro rfl
    have fits : length.toNat < 256 ^ 2 := length.toNat_lt
    have read : ofBigEndian (bigEndian 2 length.toNat) = length.toNat :=
      ofBigEndian_bigEndian_of_lt fits
    have known : Flags.ofByte? flags.toByte = some flags :=
      (Flags.ofByte?_eq_some_iff _ _).mpr rfl
    simp only [bigEndian, List.nil_append, List.cons_append] at read
    simp only [encode, bigEndian, decode, List.nil_append, List.cons_append, known, read,
      UInt16.ofNat_toNat]

theorem Header.length_ofPayload {length : Nat} (fits : length < UInt16.size) (final : Bool) :
    (ofPayload length final).length.toNat = length :=
  UInt16.toNat_ofNat_of_lt' fits

/-! ## Sealed parts -/

@[simp] theorem length_sealPart (key : Secret) (number : Nat) (part : Part) (bytes : Bytes) :
    (sealPart key number part bytes).length = bytes.length + CounterMode.codeLength :=
  CounterMode.length_sealed _ _ _ _

/-- A part opens exactly if it was sealed under the same key, as the same part of the same frame. -/
theorem openPart?_eq_some_iff (key : Secret) (number : Nat) (part : Part) (sealed bytes : Bytes) :
    openPart? key number part sealed = some bytes ↔ sealed = sealPart key number part bytes :=
  CounterMode.opened?_eq_some_iff _ _ _ _ _

theorem sealPart_inj {key : Secret} {number : Nat} {part : Part} {bytes other : Bytes}
    (same : sealPart key number part bytes = sealPart key number part other) : bytes = other := by
  have opened := (openPart?_eq_some_iff key number part _ bytes).mpr rfl
  rw [same, (openPart?_eq_some_iff key number part _ other).mpr rfl] at opened
  exact (Option.some.inj opened).symm

theorem length_toBytes (key : Secret) (number : Nat) (payload : Bytes) (final : Bool) :
    (toBytes key number payload final).length = overhead + payload.length := by
  simp only [toBytes, List.length_append, length_sealPart, Header.length_encode, headerLength,
    CounterMode.codeLength, overhead]
  omega

/-- The header gives the length of the payload, so a frame is recognised in front of other bytes. -/
theorem toBytes_append_inj {key : Secret} {number : Nat} {payload other : Bytes}
    {final otherFinal : Bool} {rest otherRest : Bytes} (small : payload.length < UInt16.size)
    (otherSmall : other.length < UInt16.size)
    (same : toBytes key number payload final ++ rest =
      toBytes key number other otherFinal ++ otherRest) :
    payload = other ∧ final = otherFinal ∧ rest = otherRest := by
  simp only [toBytes, List.append_assoc] at same
  obtain ⟨headers, tails⟩ := List.append_inj same (by simp)
  have header :
      Header.ofPayload payload.length final = Header.ofPayload other.length otherFinal := by
    have decoded := (Header.decode_eq_ok_iff _ _).mpr (sealPart_inj headers)
    rw [(Header.decode_eq_ok_iff _ _).mpr rfl] at decoded
    exact Except.ok.inj decoded
  have lengths : payload.length = other.length := by
    rw [← Header.length_ofPayload small final, header, Header.length_ofPayload otherSmall]
  obtain ⟨payloads, rests⟩ := List.append_inj tails (by simp [lengths])
  refine ⟨sealPart_inj payloads, ?_, rests⟩
  simpa [Header.ofPayload] using congrArg (·.flags.final) header

/-! ## Connections -/

/-- A payload, and whether its frame is marked as final. -/
abbrev Marked := Bytes × Bool

/-- The bytes of consecutive frames, the first of them frame `number`. -/
def bytesFrom (key : Secret) : (number : Nat) → List Marked → Bytes
  | _, [] => []
  | number, (payload, final) :: frames =>
      toBytes key number payload final ++ bytesFrom key (number + 1) frames

/-- Exactly the last frame is final. -/
inductive Complete : List Marked → Prop where
  | last (payload : Bytes) : Complete [(payload, true)]
  | more (payload : Bytes) {frames : List Marked} (rest : Complete frames) :
      Complete ((payload, false) :: frames)

/-- The payloads that reach the reader. An empty final frame only closes the connection. -/
def delivered (frames : List Marked) : List Bytes :=
  frames.filterMap fun (payload, final) => if final && payload.isEmpty then none else some payload

/-- Every payload fits in frames of `limit` bytes. -/
def Within (limit : Nat) (frames : List Marked) : Prop :=
  ∀ frame ∈ frames, frame.1.length + overhead ≤ limit

/-- What the frames cost together. -/
def totalCost : List Marked → Nat
  | [] => 0
  | (payload, _) :: frames => overhead + payload.length + totalCost frames

theorem length_bytesFrom (key : Secret) (number : Nat) (frames : List Marked) :
    (bytesFrom key number frames).length = totalCost frames := by
  induction frames generalizing number with
  | nil => rfl
  | cons frame frames ih =>
      obtain ⟨payload, final⟩ := frame
      rw [bytesFrom, List.length_append, length_toBytes, ih, totalCost]

private theorem small_of_within {limit : Nat} {payload : Bytes} {final : Bool}
    {frames : List Marked} (limited : limit ≤ maxLength)
    (within : Within limit ((payload, final) :: frames)) : payload.length < UInt16.size := by
  have short := within (payload, final) (by simp)
  simp only [maxLength, overhead] at limited short
  simp only [UInt16.size]
  omega

theorem Within.tail {limit : Nat} {frame : Marked} {frames : List Marked}
    (within : Within limit (frame :: frames)) : Within limit frames :=
  fun other member => within other (List.mem_cons_of_mem _ member)

private theorem firstFrame_inj {key : Secret} {number limit : Nat} {payload other : Bytes}
    {final otherFinal : Bool} {frames others : List Marked} {rest otherRest : Bytes}
    (limited : limit ≤ maxLength) (within : Within limit ((payload, final) :: frames))
    (otherWithin : Within limit ((other, otherFinal) :: others))
    (same : bytesFrom key number ((payload, final) :: frames) ++ rest =
      bytesFrom key number ((other, otherFinal) :: others) ++ otherRest) :
    payload = other ∧ final = otherFinal ∧
      bytesFrom key (number + 1) frames ++ rest =
        bytesFrom key (number + 1) others ++ otherRest := by
  simp only [bytesFrom, List.append_assoc] at same
  exact toBytes_append_inj (small_of_within limited within)
    (small_of_within limited otherWithin) same

/-- At most one complete connection stands at the front of given bytes. -/
theorem bytesFrom_append_inj {key : Secret} {number limit : Nat} {frames others : List Marked}
    {rest otherRest : Bytes} (limited : limit ≤ maxLength) (complete : Complete frames)
    (otherComplete : Complete others) (within : Within limit frames)
    (otherWithin : Within limit others)
    (same : bytesFrom key number frames ++ rest = bytesFrom key number others ++ otherRest) :
    frames = others := by
  induction complete generalizing number others with
  | last payload =>
      cases otherComplete with
      | last other =>
          obtain ⟨rfl, -, -⟩ := firstFrame_inj limited within otherWithin same
          rfl
      | more other otherComplete =>
          obtain ⟨-, marks, -⟩ := firstFrame_inj limited within otherWithin same
          cases marks
  | more payload complete ih =>
      cases otherComplete with
      | last other =>
          obtain ⟨-, marks, -⟩ := firstFrame_inj limited within otherWithin same
          cases marks
      | more other otherComplete =>
          obtain ⟨rfl, -, rests⟩ := firstFrame_inj limited within otherWithin same
          rw [ih otherComplete within.tail otherWithin.tail rests]

end Frame

end Courier
