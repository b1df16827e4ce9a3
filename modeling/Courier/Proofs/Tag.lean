import Courier.Proofs.Bytes
import Courier.Proofs.Secret
import Courier.Proofs.Symmetric.BlockCipher
import Courier.Tag

/-! # Tags give their stream number back

A stream number fits in one column of the padded block, and deciphering and
enciphering undo each other. So a tag decodes to its number under the key that
it was made with, and a block that decodes to a number is the tag of that
number: of all blocks, those that are tags are recognised.
-/

namespace Courier

theorem Column.toBytes_ofNat (n : Nat) : (Column.ofNat n).toBytes = bigEndian 4 n := by
  simp [ofNat, toBytes, bigEndian, Nat.div_div_eq_div_mul]

theorem Column.toNat_ofNat {n : Nat} (fits : n ≤ maxContext) : (Column.ofNat n).toNat = n := by
  rw [toNat, toBytes_ofNat, ofBigEndian_bigEndian_of_lt]
  simp only [maxContext] at fits
  omega

theorem Column.toNat_le (x : Column) : x.toNat ≤ maxContext := by
  have below : x.toNat < 256 ^ 4 := ofBigEndian_lt x.toBytes
  simp only [maxContext]
  omega

namespace Tag

theorem decode_encode {key : Secret} {stream : Nat} {tag : Tag}
    (made : encode key stream = .ok tag) : tag.decode key = some stream := by
  simp only [encode] at made
  split at made
  · cases made
  next range =>
    split at made
    · cases made
    next usable =>
      simp only [Except.ok.injEq] at made
      subst made
      have number : (plain stream).c0.toNat = stream :=
        Column.toNat_ofNat (Nat.le_of_not_lt range)
      simp only [decode, usable, Secret.decipher, Secret.encipher,
        BlockCipher.Schedule.decrypt_encrypt, number]
      simp

theorem encode_of_usable {key : Secret} {stream : Nat} (usable : key.isBlank = false)
    (range : stream ≤ maxContext) : encode key stream = .ok (key.encipher (plain stream)) := by
  simp [encode, usable, Nat.not_lt.mpr range]

/-- What a block decodes to is a number whose tag it is. -/
theorem encode_of_decode {key : Secret} {stream : Nat} {tag : Tag}
    (decoded : tag.decode key = some stream) :
    stream ≤ maxContext ∧ encode key stream = .ok tag := by
  simp only [decode] at decoded
  split at decoded
  · cases decoded
  next usable =>
    split at decoded
    next padded =>
      obtain rfl := Option.some.inj decoded
      have range := Column.toNat_le (key.decipher tag).c0
      refine ⟨range, ?_⟩
      rw [encode_of_usable (Bool.eq_false_iff.mpr usable) range, ← padded, Secret.encipher,
        Secret.decipher, BlockCipher.Schedule.encrypt_decrypt]
    · cases decoded

/-! ## Tags in a buffer -/

section

variable {buffer other : Bytes} {key : Secret} {stream : Nat} {tag : Tag}

/-- A tag stands at the front of the buffer if it was made and has room there. -/
theorem stamp_eq_ok_iff (room : length ≤ buffer.length) :
    stamp buffer key stream = (.ok (), tag.toBytes ++ buffer.drop length) ↔
      encode key stream = .ok tag := by
  rw [stamp, if_neg (Nat.not_lt.mpr room)]
  rcases encode key stream with fault | made
  · simp
  · simp only [Prod.mk.injEq, true_and, List.append_cancel_right_eq, Except.ok.injEq]
    exact ⟨fun same => by rw [← Block.ofBytes_toBytes made, same, Block.ofBytes_toBytes],
      congrArg Block.toBytes⟩

theorem stamp_of_fault {fault : CryptoFault} (failed : (stamp buffer key stream).1 = .error fault) :
    (stamp buffer key stream).2 = buffer := by
  rw [stamp] at failed ⊢
  split
  · rfl
  next long =>
    rw [if_neg long] at failed
    rcases made : encode key stream with other | tag
    · rfl
    · rw [made] at failed
      cases failed

theorem drop_stamp (buffer : Bytes) (key : Secret) (stream : Nat) :
    (stamp buffer key stream).2.drop length = buffer.drop length := by
  rw [stamp]
  split
  · rfl
  · rcases encode key stream with fault | tag
    · rfl
    · exact List.drop_left' tag.length_toBytes

theorem length_stamp (buffer : Bytes) (key : Secret) (stream : Nat) :
    (stamp buffer key stream).2.length = buffer.length := by
  rw [stamp]
  split
  · rfl
  next long =>
    rcases encode key stream with fault | tag
    · rfl
    · rw [List.length_append, Block.length_toBytes, List.length_drop]
      exact Nat.add_sub_cancel' (Nat.le_of_not_lt long)

/-- Equal tags have equal numbers, wherever they stand. -/
theorem stream_eq_of_take_stamp {first second : Nat} (usable : key.isBlank = false)
    (range : first ≤ maxContext) (range' : second ≤ maxContext) (room : length ≤ buffer.length)
    (room' : length ≤ other.length)
    (same : (stamp buffer key first).2.take length = (stamp other key second).2.take length) :
    first = second := by
  have made := encode_of_usable usable range
  have made' := encode_of_usable usable range'
  have front (tag : Tag) (rest : Bytes) : (tag.toBytes ++ rest).take length = tag.toBytes :=
    List.take_left' tag.length_toBytes
  rw [(stamp_eq_ok_iff room).mpr made, (stamp_eq_ok_iff room').mpr made', front, front] at same
  have equal := congrArg Block.ofBytes same
  rw [Block.ofBytes_toBytes, Block.ofBytes_toBytes] at equal
  rw [equal] at made
  exact Option.some.inj ((decode_encode made).symm.trans (decode_encode made'))

end

/-- Under a key that is not blank, a block decodes to a number exactly if stamping that number puts
    the block into a buffer. So every number in range comes back from its tag, no two numbers have
    one tag, and all other blocks are refused. Stamping leaves what follows the tag alone, and if
    it fails the whole buffer. -/
theorem recognised_iff_stamped (key : Secret) :
    (key.isBlank = false →
      (∀ (tag : Tag) (stream : Nat) (buffer : Bytes), length ≤ buffer.length →
        (tag.decode key = some stream ↔ stream ≤ maxContext ∧
          stamp buffer key stream = (.ok (), tag.toBytes ++ buffer.drop length))) ∧
      (∀ (stream : Nat) (buffer : Bytes), stream ≤ maxContext → length ≤ buffer.length →
        ∃ tag : Tag, stamp buffer key stream = (.ok (), tag.toBytes ++ buffer.drop length) ∧
          tag.decode key = some stream) ∧
      (∀ (first second : Nat) (buffer other : Bytes), first ≤ maxContext → second ≤ maxContext →
        length ≤ buffer.length → length ≤ other.length →
        (stamp buffer key first).2.take length = (stamp other key second).2.take length →
        first = second) ∧
      (∀ (tag : Tag) (buffer : Bytes), length ≤ buffer.length →
        (∀ stream, stream ≤ maxContext →
          stamp buffer key stream ≠ (.ok (), tag.toBytes ++ buffer.drop length)) →
        tag.decode key = none)) ∧
      ∀ (buffer : Bytes) (stream : Nat),
        (stamp buffer key stream).2.length = buffer.length ∧
        (stamp buffer key stream).2.drop length = buffer.drop length ∧
        ∀ fault, (stamp buffer key stream).1 = .error fault →
          (stamp buffer key stream).2 = buffer := by
  refine ⟨fun usable => ⟨fun tag stream buffer room => ?_, fun stream buffer range room => ?_,
    fun first second buffer other range range' room room' same => ?_,
    fun tag buffer room foreign => ?_⟩, fun buffer stream => ?_⟩
  · rw [stamp_eq_ok_iff room]
    exact ⟨encode_of_decode, fun made => decode_encode made.2⟩
  · have made := encode_of_usable usable range
    exact ⟨_, (stamp_eq_ok_iff room).mpr made, decode_encode made⟩
  · exact stream_eq_of_take_stamp usable range range' room room' same
  · rcases decoded : tag.decode key with _ | stream
    · rfl
    · obtain ⟨range, made⟩ := encode_of_decode decoded
      exact absurd ((stamp_eq_ok_iff room).mpr made) (foreign stream range)
  · exact ⟨length_stamp .., drop_stamp .., fun _ => stamp_of_fault⟩

/-- The largest number goes into a buffer that is longer than a tag and comes back, and a number out
    of range leaves the buffer alone. -/
theorem recognised_iff_stamped_largest :
    let key := Secret.repeated 5
    let buffer : Bytes := List.replicate 20 0xee
    (∃ tag : Tag, stamp buffer key maxContext = (.ok (), tag.toBytes ++ List.replicate 4 0xee) ∧
      tag.decode key = some maxContext) ∧
      stamp buffer key (maxContext + 1) = (.error (.contextOutOfRange 4294967296), buffer) := by
  intro key buffer
  obtain ⟨recognises, keeps⟩ := recognised_iff_stamped key
  obtain ⟨-, roundTrips, -, -⟩ := recognises (by decide)
  refine ⟨roundTrips maxContext buffer (Nat.le_refl _) (by decide), Prod.ext rfl ?_⟩
  exact (keeps buffer (maxContext + 1)).2.2 _ rfl

end Tag

end Courier
