import Courier.Proofs.Connection.Reading
import Courier.Proofs.Connection.Writing
import Courier.Proofs.Session.Memory

/-! # Readers accept what writers write

The bytes that a reader goes through to the end are, tag aside, those of exactly
one sequence of frames that a writer with the same secret, stream and role puts
out. The two are tied together by `Frame.bytesFrom`: writing produces it, reading
recovers it, and no bytes start with two of them.
-/

namespace Courier

namespace Frame

/-- A capacity that every connection fits in. -/
def ample : Nat := Tag.length + (maxNumber + 1) * maxLength

theorem totalCost_le {limit : Nat} {frames : List Marked} (within : Within limit frames) :
    totalCost frames ≤ frames.length * limit := by
  induction frames with
  | nil => simp [totalCost]
  | cons frame frames ih =>
      have short := within frame (List.mem_cons_self ..)
      have rest := ih within.tail
      rw [totalCost, List.length_cons, Nat.add_mul, Nat.one_mul]
      omega

/-- The bytes that a writer puts out after its tag when it is given these frames, exactly the last
    of them final, and capacity enough. -/
structure Written (secret : Secret) (stream : Nat) (role : Role) (transportLimit : Nat)
    (frames : List Marked) (bytes : Bytes) : Prop where
  complete : Complete frames
  numbers : frames.length ≤ maxNumber + 1
  within : Within (effectiveLength transportLimit) frames
  written : ∀ capacity, ample ≤ capacity → ∃ tag w w',
    Tag.make secret stream role = .ok tag ∧
      FrameWriter.make ({} : Memory.Outbound) capacity transportLimit secret stream role = .ok w ∧
      w.writeEach (Memory.sink {}) frames = (.ok (), w') ∧
      w'.outlet.device.bytes = tag.toBytes ++ bytes

variable {secret : Secret} {stream transportLimit : Nat} {role : Role}

private theorem bytes_of_writeEach {capacity : Nat} {frames : List Marked}
    (complete : Complete frames) {tag : Tag} {key : Secret} {w w' : FrameWriter Memory.Outbound}
    (tagged : Tag.make secret stream role = .ok tag)
    (keyed : secret.derive (.frameKey role stream) = .ok key)
    (made : FrameWriter.make {} capacity transportLimit secret stream role = .ok w)
    (written : w.writeEach (Memory.sink {}) frames = (.ok (), w')) :
    w'.outlet.device.bytes = tag.toBytes ++ bytesFrom key 0 frames := by
  obtain ⟨-, tag', key', tagged', keyed', rfl⟩ := (FrameWriter.make_eq_ok_iff _ _ _ _ _ _ _).mp made
  rw [tagged, Except.ok.injEq] at tagged'
  rw [keyed, Except.ok.injEq] at keyed'
  subst tagged' keyed'
  have some : frames ≠ [] := by cases complete <;> exact List.cons_ne_nil _ _
  have taken := FrameWriter.writeEach_taken some written
  have begins : Sink.Since Memory.Outbound.bytes [] ({ device := {} } : Outlet _) := rfl
  have held := FrameWriter.writeEach_since (Memory.sink_keeps {}) frames
    (w := { outlet := { device := {} }, key, pendingTag := Option.some tag, remaining := capacity,
            maxLength := effectiveLength transportLimit }) begins
  rw [written] at held
  exact held.trans taken

/-- A writer puts out the bytes of its frames under its frame key, and nothing stops it. -/
theorem written_iff (usable : secret.isBlank = false) (range : stream ≤ maxContext)
    (tagKey : ∀ key, secret.derive (.tagKey role) = .ok key → key.isBlank = false)
    (room : overhead < effectiveLength transportLimit) {key : Secret}
    (keyed : secret.derive (.frameKey role stream) = .ok key) (frames : List Marked)
    (bytes : Bytes) :
    Written secret stream role transportLimit frames bytes ↔
      Complete frames ∧ frames.length ≤ maxNumber + 1 ∧
        Within (effectiveLength transportLimit) frames ∧ bytes = bytesFrom key 0 frames := by
  obtain ⟨tag, tagged⟩ := FrameWriter.tag_make_of_usable usable range tagKey
  constructor
  · rintro ⟨complete, numbers, within, written⟩
    obtain ⟨tag', w, w', tagged', made, each, held⟩ := written ample (Nat.le_refl _)
    rw [bytes_of_writeEach complete tagged' keyed made each] at held
    exact ⟨complete, numbers, within, (List.append_cancel_left held).symm⟩
  · rintro ⟨complete, numbers, within, rfl⟩
    refine ⟨complete, numbers, within, fun capacity enough => ?_⟩
    have made := (FrameWriter.make_eq_ok_iff ({} : Memory.Outbound) capacity transportLimit secret
      stream role _).mpr ⟨room, tag, key, tagged, keyed, rfl⟩
    have limited : effectiveLength transportLimit ≤ maxLength := Nat.min_le_right _ _
    have cost : totalCost frames ≤ (maxNumber + 1) * maxLength :=
      Nat.le_trans (totalCost_le within) (Nat.mul_le_mul numbers limited)
    have due : Tag.length + totalCost frames ≤ capacity := by
      simp only [ample] at enough
      omega
    have reliable := Memory.sink_reliable Memory.WriteLimits.harmless_default
    obtain ⟨w', each⟩ := FrameWriter.writeEach_of_room reliable complete
      (w := { outlet := { device := {} }, key, pendingTag := some tag, remaining := capacity,
              maxLength := effectiveLength transportLimit })
      rfl rfl within (by simpa using numbers) due
    exact ⟨tag, _, w', tagged, made, each, bytes_of_writeEach complete tagged keyed made each⟩

end Frame

namespace FrameReader

variable {ρ : Type} {source : Source ρ} {left : ρ → Bytes} {secret : Secret}
  {stream transportLimit : Nat} {role : Role}

/-- Reading up to the end gives these payloads and no fault, with `rest` not read yet. -/
def Accepts (source : Source ρ) (left : ρ → Bytes) (r : FrameReader ρ) (payloads : List Bytes)
    (rest : Bytes) : Prop :=
  (r.readAll source 0).map (·.1) = payloads.map (fun payload => .ok (some payload)) ++ [.ok none] ∧
    (r.readAll source 0).getLast?.map (fun answer => left answer.2.device) = some rest

/-- The end is reached in one way only, so the answers tell what was gone through. -/
theorem accepts_iff_drains (r : FrameReader ρ) (payloads : List Bytes) (rest : Bytes) :
    r.Accepts source left payloads rest ↔
      ∃ r', Drains source r payloads r' ∧ left r'.device = rest := by
  constructor
  · rintro ⟨answers, last⟩
    obtain ⟨r', drains⟩ := drains_of_readAll answers
    refine ⟨r', drains, ?_⟩
    obtain ⟨answer, found, at_end⟩ := Option.map_eq_some_iff.mp (readAll_of_drains drains).2
    rw [found, Option.map_some, Option.some.injEq] at last
    rw [← at_end, last]
  · rintro ⟨r', drains, rfl⟩
    obtain ⟨answers, last⟩ := readAll_of_drains drains
    obtain ⟨answer, found, at_end⟩ := Option.map_eq_some_iff.mp last
    exact ⟨answers, by rw [found, Option.map_some, at_end]⟩

/-- A reader gets to the end of a byte string exactly if a connection that some writer of its keys
    puts out stands at the front. It gives the payloads of that connection and reads nothing behind
    it, and no other sequence of frames makes bytes that stand there. -/
theorem accepts_iff_written (yields : source.Yields left) (usable : secret.isBlank = false)
    (range : stream ≤ maxContext)
    (tagKey : ∀ key, secret.derive (.tagKey role) = .ok key → key.isBlank = false)
    (room : Frame.overhead < Frame.effectiveLength transportLimit) (device : ρ) :
    ∃ r, make device transportLimit secret stream role = .ok r ∧
      (∀ payloads rest, r.Accepts source left payloads rest ↔
        ∃ frames bytes, Frame.Written secret stream role transportLimit frames bytes ∧
          left device = bytes ++ rest ∧ payloads = Frame.delivered frames) ∧
      (∀ frames others bytes otherBytes,
        Frame.Written secret stream role transportLimit frames bytes →
        Frame.Written secret stream role transportLimit others otherBytes →
        bytes <+: left device → otherBytes <+: left device → frames = others) := by
  obtain ⟨key, keyed⟩ := Secret.derive_of_usable (.frameKey role stream) usable range
  have made := (make_eq_ok_iff device transportLimit secret stream role _).mpr
    ⟨room, key, keyed, rfl⟩
  have written := Frame.written_iff usable range tagKey room keyed
  have limited : Frame.effectiveLength transportLimit ≤ Frame.maxLength := Nat.min_le_right _ _
  refine ⟨_, made, fun payloads rest => ?_, ?_⟩
  · rw [accepts_iff_drains]
    constructor
    · rintro ⟨r', drains, rfl⟩
      obtain ⟨frames, complete, numbers, within, given, front⟩ :=
        frames_of_drains yields drains rfl (Nat.le_of_lt room)
      rw [Nat.zero_add] at numbers
      exact ⟨frames, _, (written frames _).mpr ⟨complete, numbers, within, rfl⟩, front, given⟩
    · rintro ⟨frames, bytes, whole, front, rfl⟩
      obtain ⟨complete, numbers, within, rfl⟩ := (written frames bytes).mp whole
      exact drains_of_frames yields complete rfl rfl (by rw [Nat.zero_add]; exact numbers) within
        limited front
  · rintro frames others bytes otherBytes whole otherWhole ⟨rest, front⟩ ⟨otherRest, otherFront⟩
    obtain ⟨complete, -, within, rfl⟩ := (written frames bytes).mp whole
    obtain ⟨otherComplete, -, otherWithin, rfl⟩ := (written others otherBytes).mp otherWhole
    exact Frame.bytesFrom_append_inj limited complete otherComplete within otherWithin
      (front.trans otherFront.symm)

set_option maxRecDepth 100000 in
/-- A connection of two frames, with one byte behind it. -/
theorem accepts_iff_written_repeated :
    let frames : List Frame.Marked := [([1, 2, 3], false), ([], true)]
    (Secret.repeated 7).isBlank = false ∧
      (∀ key, (Secret.repeated 7).derive (.tagKey .alice) = .ok key → key.isBlank = false) ∧
      ∃ bytes r, Frame.Written (.repeated 7) 5 .alice 1000 frames bytes ∧
        make ({ rest := bytes ++ [4] } : Memory.Inbound) 1000 (.repeated 7) 5 .alice = .ok r ∧
        r.Accepts (Memory.source {}) Memory.Inbound.rest [[1, 2, 3]] [4] ∧
        (∀ payloads rest, r.Accepts (Memory.source {}) Memory.Inbound.rest payloads rest ↔
          ∃ others written, Frame.Written (.repeated 7) 5 .alice 1000 others written ∧
            bytes ++ [4] = written ++ rest ∧ payloads = Frame.delivered others) ∧
        ∀ others written, Frame.Written (.repeated 7) 5 .alice 1000 others written →
          written <+: bytes ++ [4] → others = frames := by
  intro frames
  have usable : (Secret.repeated 7).isBlank = false := by decide
  have tagKey : ∀ key, (Secret.repeated 7).derive (.tagKey .alice) = .ok key →
      key.isBlank = false :=
    Secret.usable_of_computed (by decide +kernel)
  have range : 5 ≤ maxContext := by decide
  have room : Frame.overhead < Frame.effectiveLength 1000 := by decide
  obtain ⟨key, keyed⟩ := Secret.derive_of_usable (.frameKey .alice 5) usable range
  have complete : Frame.Complete frames := .more _ (.last _)
  have within : Frame.Within (Frame.effectiveLength 1000) frames := by
    rw [Frame.Within]
    decide
  have written : Frame.Written (.repeated 7) 5 .alice 1000 frames (Frame.bytesFrom key 0 frames) :=
    (Frame.written_iff usable range tagKey room keyed ..).mpr ⟨complete, by decide, within, rfl⟩
  obtain ⟨r, made, accepts, only⟩ :=
    accepts_iff_written (Memory.source_yields Memory.ReadLimits.harmless_default) usable range
      tagKey room { rest := Frame.bytesFrom key 0 frames ++ [4] }
  have accepted := (accepts [[1, 2, 3]] [4]).mpr ⟨frames, _, written, rfl, rfl⟩
  refine ⟨usable, tagKey, _, r, written, made, accepted, accepts, ?_⟩
  intro others bytes whole front
  exact only others frames _ _ whole written front (List.prefix_append ..)

end FrameReader

end Courier
