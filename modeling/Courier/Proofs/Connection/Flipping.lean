import Courier.Proofs.Connection.Truncation
import Courier.Proofs.Secret
import Courier.Proofs.Session.Memory
import Courier.Proofs.Symmetric.Flipping
import Courier.Tampering

/-! # Reading a connection with a flipped bit

A frame is two sealed parts, and a bit of it is a bit of one of them. That part does
not open, whatever bit it is, if the hash key of the frame key is not zero, so the
reader answers that authentication failed before it looks at the length, the marks
or the payload in it.
-/

namespace Courier

variable {ρ : Type} {source : Source ρ} {left : ρ → Bytes} {place bit : Nat}

namespace Frame

theorem openPart?_flipped {key : Secret} (hashes : key.encipher .zero ≠ .zero) (number : Nat)
    (part : Part) {bytes : Bytes} (range : place < (sealPart key number part bytes).length)
    (inByte : bit < 8) :
    openPart? key number part
      ((sealPart key number part bytes).modify place (· ^^^ UInt8.ofNat (2 ^ bit))) = none :=
  CounterMode.opened?_flipped hashes bytes range inByte

/-- A change of one byte of frames is a change in the one frame that has it. -/
theorem modify_bytesFrom (key : Secret) (number : Nat) {front later : List Marked} {next : Marked}
    (within : totalCost front ≤ place)
    (beyond : place < totalCost front + (overhead + next.1.length)) (f : UInt8 → UInt8) :
    (bytesFrom key number (front ++ next :: later)).modify place f =
      bytesFrom key number front ++
        ((toBytes key (number + front.length) next.1 next.2).modify (place - totalCost front) f ++
          bytesFrom key (number + front.length + 1) later) := by
  rw [bytesFrom_append, modify_append_right (by rwa [length_bytesFrom]), length_bytesFrom,
    bytesFrom, modify_append_left]
  rw [length_toBytes]
  omega

end Frame

namespace FrameReader

/-- A whole part that does not open is no part at all. -/
theorem readPart_of_unopened (yields : source.Yields left) (r : FrameReader ρ) (part : Frame.Part)
    {bytes rest : Bytes} {length : Nat} {device : ρ}
    (size : bytes.length = length + CounterMode.codeLength)
    (unopened : Frame.openPart? r.key r.frames part bytes = none)
    (front : left device = bytes ++ rest) :
    ∃ device', r.readPart source part length device = (.error .authenticationFailed, device') := by
  obtain ⟨device', answer, -⟩ :=
    Source.readExact_eq yields (length + CounterMode.codeLength) device
  rw [front, List.length_append, ← size, if_pos (Nat.le_add_right _ _), List.take_left] at answer
  exact ⟨device', by rw [readPart, ← size, answer]; simp only [unopened]⟩

/-- A frame with one bit flipped is not authentic. -/
theorem openNext_of_flip (yields : source.Yields left) {r : FrameReader ρ} {payload rest : Bytes}
    {final : Bool} (hashes : r.key.encipher .zero ≠ .zero) (inRange : r.frames ≤ Frame.maxNumber)
    (short : payload.length + Frame.overhead ≤ r.maxLength)
    (limited : r.maxLength ≤ Frame.maxLength) (inside : place < Frame.overhead + payload.length)
    (inByte : bit < 8)
    (front : left r.device = (Frame.toBytes r.key r.frames payload final).modify place
      (· ^^^ UInt8.ofNat (2 ^ bit)) ++ rest) :
    ∃ device', r.openNext source = (.error .authenticationFailed, device') := by
  by_cases early : place < Frame.headerLength + CounterMode.codeLength
  · have range : place < (Frame.sealPart r.key r.frames .header
        (Frame.Header.ofPayload payload.length final).encode).length := by rwa [length_header]
    rw [Frame.toBytes, modify_append_left range, List.append_assoc] at front
    obtain ⟨device', failed⟩ := readPart_of_unopened yields r .header
      (by rw [List.length_modify, length_header])
      (Frame.openPart?_flipped hashes r.frames .header range inByte) front
    exact ⟨device', openNext_of_header inRange failed⟩
  · have beyond : (Frame.sealPart r.key r.frames .header
        (Frame.Header.ofPayload payload.length final).encode).length ≤ place := by
      rw [length_header]
      exact Nat.le_of_not_lt early
    rw [Frame.toBytes, modify_append_right beyond, length_header, List.append_assoc] at front
    refine openNext_of_payload yields inRange short limited front fun device here => ?_
    refine readPart_of_unopened yields r .payload
      (by rw [List.length_modify, Frame.length_sealPart])
      (Frame.openPart?_flipped hashes r.frames .payload ?_ inByte) here
    rw [Frame.length_sealPart]
    simp only [Frame.overhead, Frame.headerLength, CounterMode.codeLength] at inside early ⊢
    omega

end FrameReader

/-- A finished connection of which one bit after the tag is flipped. If the hash key of its frame
    key is not zero, then a reader gives the payloads of the frames before the one with that bit,
    then that authentication failed, and then only that it is faulted. -/
theorem Frame.Finished.read_of_flip {secret key : Secret} {stream limit readLimit : Nat}
    {role : Role} {frames : List Frame.Marked} {bytes : Bytes} {device : ρ}
    (finished : Frame.Finished secret stream role limit frames bytes)
    (keyed : secret.derive (.frameKey role stream) = .ok key)
    (hashes : key.encipher .zero ≠ .zero) (yields : source.Yields left)
    (limits : Frame.effectiveLength limit ≤ Frame.effectiveLength readLimit)
    (after : Tag.length ≤ place) (range : place < bytes.length) (inByte : bit < 8)
    (given : left device = Tampering.apply bytes (.flip place (UInt8.ofNat (2 ^ bit)))) :
    ∃ tag device' r, Tag.make secret stream role = .ok tag ∧
      Tag.read source device = (.ok tag, device') ∧
      FrameReader.make device' readLimit secret stream role = .ok r ∧
      r.FailsWith source ((Frame.inside (place - Tag.length) frames).map (·.1))
        .authenticationFailed := by
  obtain ⟨tag, its, spelled⟩ := finished.spelled (List.ne_nil_of_length_pos (by omega))
  obtain rfl : key = its := Except.ok.inj (keyed.symm.trans spelled.keyed)
  have size : tag.toBytes.length = Tag.length := Block.length_toBytes tag
  have total := congrArg List.length spelled.bytes
  rw [List.length_append, size, Frame.length_bytesFrom] at total
  have early : place - Tag.length < Frame.totalCost frames := by omega
  obtain ⟨next, later, split, within, beyond⟩ := Frame.inside_split early
  generalize Frame.inside (place - Tag.length) frames = whole at *
  rw [Tampering.apply, Nat.mod_eq_of_lt range, spelled.bytes,
    modify_append_right (by rwa [size]), size, split,
    Frame.modify_bytesFrom key 0 within beyond, Nat.zero_add] at given
  obtain ⟨device', read, rest⟩ := Tag.read_of_front yields given
  have barred : Frame.Barred source left key readLimit whole next
      ((Frame.toBytes key whole.length next.1 next.2).modify
          (place - Tag.length - Frame.totalCost whole) (· ^^^ UInt8.ofNat (2 ^ bit)) ++
        Frame.bytesFrom key (whole.length + 1) later) .authenticationFailed := by
    rintro there rfl count inRange short maxLength here
    rw [← count] at here
    refine FrameReader.openNext_of_flip yields hashes inRange short ?_ (by omega) inByte here
    rw [maxLength]
    exact Nat.min_le_right ..
  obtain ⟨r, r', made, breaks⟩ := spelled.breaks_of_barred limits yields split barred rest
  exact ⟨tag, device', r, spelled.tagged, read, made, breaks.failsWith⟩

/-- A bit in the closing frame of a connection with one payload. -/
theorem Frame.Finished.read_of_flip_closing :
    let secret := Secret.repeated 5
    ∃ key bytes, secret.derive (.frameKey .alice 3) = .ok key ∧ key.encipher .zero ≠ .zero ∧
      Frame.Finished secret 3 .alice 100 [([1, 2], false), ([], true)] bytes ∧
      59 < bytes.length ∧
      ∃ tag device' r,
        Tag.read (Memory.source {}) { rest := Tampering.apply bytes (.flip 59 8) } =
          (.ok tag, device') ∧
        FrameReader.make device' 100 secret 3 .alice = .ok r ∧
        r.FailsWith (Memory.source {}) [[1, 2]] .authenticationFailed := by
  intro secret
  let calls : List FrameWriter.Call := [.write [1, 2] false, .finish]
  obtain ⟨tag, tagged⟩ : ∃ tag, Tag.make secret 3 .alice = .ok tag :=
    FrameWriter.tag_make_of_usable (by decide) (by decide)
      (Secret.usable_of_computed (by decide +kernel))
  obtain ⟨key, keyed⟩ : ∃ key, secret.derive (.frameKey .alice 3) = .ok key :=
    Secret.derive_of_usable _ (by decide) (by decide)
  have hashes : key.encipher .zero ≠ .zero := by
    have computed : (secret.derive (.frameKey .alice 3)).toOption.all
        (fun key => decide (key.encipher .zero ≠ .zero)) = true := by decide +kernel
    simpa [keyed, Except.toOption] using computed
  obtain ⟨bytes, finished, long⟩ : ∃ bytes,
      Frame.Finished secret 3 .alice 100 [([1, 2], false), ([], true)] bytes ∧
        59 < bytes.length := by
    have made := (FrameWriter.make_eq_ok_iff ({} : Memory.Outbound) 93 100 secret 3 .alice _).mpr
      ⟨by decide, tag, key, tagged, keyed, rfl⟩
    have computed : (FrameWriter.make ({} : Memory.Outbound) 93 100 secret 3 .alice).toOption.all
        (fun begun =>
          let a := FrameWriter.Account.run (Memory.sink {}) { writer := begun } calls
          a.writer.finished && a.frames == [([1, 2], false), ([], true)] &&
            decide (59 < a.taken.length)) = true := by decide +kernel
    rw [made] at computed
    simp only [Except.toOption, Option.all_some, Bool.and_eq_true, beq_iff_eq,
      decide_eq_true_eq] at computed
    obtain ⟨⟨ended, frames⟩, long⟩ := computed
    have finished := Frame.Finished.of_calls made calls ended
    rw [frames] at finished
    exact ⟨_, finished, long⟩
  have given : ({ rest := Tampering.apply bytes (.flip 59 8) } : Memory.Inbound).rest =
      Tampering.apply bytes (.flip 59 (UInt8.ofNat (2 ^ 3))) := rfl
  obtain ⟨tag, device', r, -, read, opened, fails⟩ := finished.read_of_flip keyed hashes
    (Memory.source_yields Memory.ReadLimits.harmless_default) (Nat.le_refl _) (by decide) long
    (by decide) given
  exact ⟨key, bytes, keyed, hashes, finished, long, tag, device', r, read, opened, fails⟩

end Courier
