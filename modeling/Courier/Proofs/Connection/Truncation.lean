import Courier.Proofs.Connection.Finishing
import Courier.Proofs.Connection.Reading

/-! # Reading a connection that breaks off

A reader whose bytes stop being those of a connection gives the payloads of the
frames before that place, then one fault, and from then on the fault of a reader
that has failed, without reading any further. Where a connection is cut, the fault
is always that it is truncated: a cut between two frames leaves the reader without
the next header, and a cut inside a frame without the rest of a part.
-/

namespace Courier

namespace Frame

/-- The frames that lie wholly in the first `room` bytes. -/
def inside : (room : Nat) → List Marked → List Marked
  | _, [] => []
  | room, frame :: frames =>
      if overhead + frame.1.length ≤ room then
        frame :: inside (room - (overhead + frame.1.length)) frames
      else []

theorem inside_zero (frames : List Marked) : inside 0 frames = [] := by
  cases frames with
  | nil => rfl
  | cons frame frames => rw [inside, if_neg (by simp [overhead])]

/-- Where not all frames fit, the first one that does not follows those inside. -/
theorem inside_split {room : Nat} {frames : List Marked} (cut : room < totalCost frames) :
    ∃ next later, frames = inside room frames ++ next :: later ∧
      totalCost (inside room frames) ≤ room ∧
      room < totalCost (inside room frames) + (overhead + next.1.length) := by
  induction frames generalizing room with
  | nil => exact absurd cut (Nat.not_lt_zero _)
  | cons frame frames ih =>
      by_cases fits : overhead + frame.1.length ≤ room
      · rw [totalCost] at cut
        have left : room - (overhead + frame.1.length) < totalCost frames := by omega
        obtain ⟨next, later, split, within, beyond⟩ := ih left
        rw [inside, if_pos fits, totalCost]
        exact ⟨next, later, by rw [List.cons_append, ← split], by omega, by omega⟩
      · rw [inside, if_neg fits, totalCost]
        exact ⟨frame, frames, rfl, Nat.zero_le _, by omega⟩

/-- The first bytes of frames: those of the frames inside, and a part of the next frame. -/
theorem take_bytesFrom (key : Secret) (number : Nat) {front later : List Marked} {next : Marked}
    {room : Nat} (within : totalCost front ≤ room)
    (beyond : room < totalCost front + (overhead + next.1.length)) :
    (bytesFrom key number (front ++ next :: later)).take room = bytesFrom key number front ++
      (toBytes key (number + front.length) next.1 next.2).take (room - totalCost front) := by
  rw [bytesFrom_append, List.take_append, length_bytesFrom,
    List.take_of_length_le (by rw [length_bytesFrom]; exact within), bytesFrom,
    List.take_append_of_le_length (by rw [length_toBytes]; omega)]

end Frame

variable {ρ : Type} {source : Source ρ} {left : ρ → Bytes}

/-- Bytes that are too few for a tag are truncated. -/
theorem Tag.read_of_short (yields : source.Yields left) {device : ρ}
    (short : (left device).length < Tag.length) :
    ∃ device', Tag.read source device = (.error .truncated, device') := by
  obtain ⟨device', answer, -⟩ := Source.readExact_eq yields Tag.length device
  rw [if_neg (Nat.not_le.mpr short)] at answer
  exact ⟨device', by rw [Tag.read, answer]; rfl⟩

namespace FrameReader

/-! ## Answers up to a fault -/

/-- Reading up to the first fault: the payloads on the way, the fault, and the reader after it. -/
inductive Breaks (source : Source ρ) :
    FrameReader ρ → List Bytes → ConnectionFault → FrameReader ρ → Prop where
  | fails {r r' : FrameReader ρ} {fault : ConnectionFault}
      (failed : r.next source = (.error fault, r')) : Breaks source r [] fault r'
  | more {r between r' : FrameReader ρ} {payload : Bytes} {payloads : List Bytes}
      {fault : ConnectionFault} (answered : r.next source = (.ok (some payload), between))
      (rest : Breaks source between payloads fault r') :
      Breaks source r (payload :: payloads) fault r'

/-- The reader gives these payloads and then this fault. However often it is asked again, it answers
    that it is faulted, and neither it nor its device changes. -/
def FailsWith (source : Source ρ) (r : FrameReader ρ) (payloads : List Bytes)
    (fault : ConnectionFault) : Prop :=
  ∃ answers last, answers.map (·.1) = payloads.map (fun payload => .ok (some payload)) ∧
    ∀ extra, r.readAll source extra =
      answers ++ (.error fault, last) :: List.replicate extra (.error .faulted, last)

theorem next_of_faulted {r : FrameReader ρ} (faulted : r.faulted = true) :
    r.next source = (.error .faulted, r) := by
  rw [next, if_pos faulted]

theorem faulted_of_next {r r' : FrameReader ρ} {fault : ConnectionFault}
    (failed : r.next source = (.error fault, r')) : r'.faulted = true := by
  simp only [next] at failed
  split at failed
  next faulted =>
    obtain ⟨-, rfl⟩ := Prod.mk.inj failed
    exact faulted
  · split at failed
    · cases failed
    · split at failed
      · obtain ⟨-, rfl⟩ := Prod.mk.inj failed
        rfl
      · cases failed

theorem readAll_of_error {r r' : FrameReader ρ} {fault : ConnectionFault}
    (failed : r.next source = (.error fault, r')) (extra : Nat) :
    r.readAll source extra =
      (.error fault, r') :: List.replicate extra (.error .faulted, r') := by
  induction extra generalizing r fault with
  | zero =>
      rw [readAll, failed]
      rfl
  | succ extra ih =>
      rw [readAll, failed]
      simp only [List.replicate_succ]
      rw [ih (next_of_faulted (faulted_of_next failed))]

theorem Breaks.failsWith {r r' : FrameReader ρ} {payloads : List Bytes} {fault : ConnectionFault}
    (breaks : Breaks source r payloads fault r') : r.FailsWith source payloads fault := by
  induction breaks with
  | @fails r r' fault failed => exact ⟨[], r', rfl, readAll_of_error failed⟩
  | @more r between r' payload payloads fault answered rest ih =>
      obtain ⟨answers, last, given, all⟩ := ih
      refine ⟨(.ok (some payload), between) :: answers, last, ?_, fun extra => ?_⟩
      · rw [List.map_cons, List.map_cons, given]
      · rw [readAll, answered, List.cons_append, ← all extra]

/-- A reader that goes through whole frames and cannot open what follows them breaks off there. -/
theorem breaks_of_frames (yields : source.Yields left) {frames : List Frame.Marked}
    {r : FrameReader ρ} {rest : Bytes} {fault : ConnectionFault} (sound : r.faulted = false)
    (unfinished : r.finished = false) (others : ∀ frame ∈ frames, frame.2 = false)
    (numbers : r.frames + frames.length ≤ Frame.maxNumber + 1)
    (within : Frame.Within r.maxLength frames) (limited : r.maxLength ≤ Frame.maxLength)
    (front : left r.device = Frame.bytesFrom r.key r.frames frames ++ rest)
    (fails : ∀ there : FrameReader ρ, there.key = r.key → there.maxLength = r.maxLength →
      there.frames = r.frames + frames.length → left there.device = rest →
        ∃ device', there.openNext source = (.error fault, device')) :
    ∃ r', Breaks source r (frames.map (·.1)) fault r' := by
  induction frames generalizing r with
  | nil =>
      obtain ⟨device', failed⟩ := fails r rfl rfl rfl front
      exact ⟨_, .fails (by simp [next, sound, unfinished, failed]; rfl)⟩
  | cons frame frames ih =>
      obtain ⟨payload, final⟩ := frame
      obtain rfl : final = false := others _ (List.mem_cons_self ..)
      rw [Frame.bytesFrom, List.append_assoc] at front
      rw [List.length_cons] at numbers
      obtain ⟨device', opened, after⟩ := openNext_of_frame yields (by omega)
        (within (payload, false) (List.mem_cons_self ..)) limited front
      obtain ⟨r', breaks⟩ := ih (r := r.advanced device' false) sound rfl
        (fun frame member => others frame (.tail _ member))
        (by simp only [advanced]; omega) within.tail limited after
        fun there key maxLength count here => by
          refine fails there key maxLength ?_ here
          rw [count, List.length_cons, ← Nat.add_assoc, Nat.add_right_comm]
          rfl
      exact ⟨r', .more (next_of_opened sound unfinished opened) breaks⟩

/-! ## Frames that cannot be opened -/

theorem length_header (key : Secret) (number : Nat) (header : Frame.Header) :
    (Frame.sealPart key number .header header.encode).length =
      Frame.headerLength + CounterMode.codeLength := by
  rw [Frame.length_sealPart, Frame.Header.length_encode]

/-- A header that cannot be read ends the frame. -/
theorem openNext_of_header {r : FrameReader ρ} {device' : ρ} {fault : ConnectionFault}
    (inRange : r.frames ≤ Frame.maxNumber)
    (failed : r.readPart source .header Frame.headerLength r.device = (.error fault, device')) :
    r.openNext source = (.error fault, device') := by
  simp only [openNext, if_neg (Nat.not_lt.mpr inRange), failed]

/-- After the header of a frame, whatever is wrong with its payload ends it. -/
theorem openNext_of_payload (yields : source.Yields left) {r : FrameReader ρ}
    {payload rest : Bytes} {final : Bool} {fault : ConnectionFault}
    (inRange : r.frames ≤ Frame.maxNumber)
    (short : payload.length + Frame.overhead ≤ r.maxLength)
    (limited : r.maxLength ≤ Frame.maxLength)
    (front : left r.device = Frame.sealPart r.key r.frames .header
      (Frame.Header.ofPayload payload.length final).encode ++ rest)
    (fails : ∀ device, left device = rest →
      ∃ device', r.readPart source .payload payload.length device = (.error fault, device')) :
    ∃ device', r.openNext source = (.error fault, device') := by
  have small : payload.length < UInt16.size := by
    simp only [Frame.overhead, Frame.maxLength] at short limited
    simp only [UInt16.size]
    omega
  have size := Frame.Header.length_ofPayload small final
  have decoded := (Frame.Header.decode_eq_ok_iff _ (.ofPayload payload.length final)).mpr rfl
  obtain ⟨between, read, here⟩ := readPart_of_sealed yields r .header front
  obtain ⟨device', failed⟩ := fails between here
  have fits : ¬ r.maxLength - Frame.overhead < payload.length := by omega
  rw [Frame.Header.length_encode] at read
  refine ⟨device', ?_⟩
  simp only [openNext, if_neg (Nat.not_lt.mpr inRange), read, decoded, size, if_neg fits, failed]

/-! ## Cut connections -/

theorem readPart_of_short (yields : source.Yields left) (r : FrameReader ρ) (part : Frame.Part)
    {length : Nat} {device : ρ}
    (short : (left device).length < length + CounterMode.codeLength) :
    ∃ device', r.readPart source part length device = (.error .truncated, device') := by
  obtain ⟨device', answer, -⟩ :=
    Source.readExact_eq yields (length + CounterMode.codeLength) device
  rw [if_neg (Nat.not_le.mpr short)] at answer
  exact ⟨device', by rw [readPart, answer]; rfl⟩

/-- A frame of which the end is missing is truncated. -/
theorem openNext_of_cut (yields : source.Yields left) {r : FrameReader ρ} {payload : Bytes}
    {final : Bool} {room : Nat} (inRange : r.frames ≤ Frame.maxNumber)
    (short : payload.length + Frame.overhead ≤ r.maxLength)
    (limited : r.maxLength ≤ Frame.maxLength) (cut : room < Frame.overhead + payload.length)
    (front : left r.device = (Frame.toBytes r.key r.frames payload final).take room) :
    ∃ device', r.openNext source = (.error .truncated, device') := by
  rw [Frame.toBytes, List.take_append, length_header] at front
  by_cases early : room < Frame.headerLength + CounterMode.codeLength
  · have few : (left r.device).length < Frame.headerLength + CounterMode.codeLength := by
      rw [front, List.length_append, List.length_take, List.length_take, length_header]
      omega
    obtain ⟨device', failed⟩ := readPart_of_short yields r .header few
    exact ⟨device', openNext_of_header inRange failed⟩
  · rw [List.take_of_length_le (by rw [length_header]; omega)] at front
    refine openNext_of_payload yields inRange short limited front fun device rest => ?_
    refine readPart_of_short yields r .payload ?_
    rw [rest, List.length_take]
    simp only [Frame.overhead, Frame.headerLength, CounterMode.codeLength] at cut early ⊢
    omega

end FrameReader

namespace Frame

variable {secret key : Secret} {stream limit readLimit room : Nat} {role : Role}
  {frames : List Marked} {tag : Tag} {bytes : Bytes}

/-- A reader of the same keys and with frames at least as long. -/
theorem Spelled.reader (spelled : Spelled secret stream role limit frames tag key bytes)
    (limits : effectiveLength limit ≤ effectiveLength readLimit) (device : ρ) :
    FrameReader.make device readLimit secret stream role =
      .ok { device, key, maxLength := effectiveLength readLimit } :=
  (FrameReader.make_eq_ok_iff ..).mpr
    ⟨Nat.lt_of_lt_of_le spelled.room limits, key, spelled.keyed, rfl⟩

/-- A reader with the right key, room and number that comes to the frame after `front` cannot open
    it. -/
def Barred (source : Source ρ) (left : ρ → Bytes) (key : Secret) (readLimit : Nat)
    (front : List Marked) (next : Marked) (rest : Bytes) (fault : ConnectionFault) : Prop :=
  ∀ there : FrameReader ρ, there.key = key → there.frames = front.length →
    there.frames ≤ maxNumber → next.1.length + overhead ≤ there.maxLength →
    there.maxLength = effectiveLength readLimit → left there.device = rest →
      ∃ device', there.openNext source = (.error fault, device')

/-- After its tag, a connection is read up to the frame that cannot be opened. -/
theorem Spelled.breaks_of_barred
    (spelled : Spelled secret stream role limit frames tag key bytes)
    (limits : effectiveLength limit ≤ effectiveLength readLimit) (yields : source.Yields left)
    {whole later : List Marked} {next : Marked} (split : frames = whole ++ next :: later)
    {rest : Bytes} {fault : ConnectionFault}
    (barred : Barred source left key readLimit whole next rest fault) {device : ρ}
    (front : left device = bytesFrom key 0 whole ++ rest) :
    ∃ r r', FrameReader.make device readLimit secret stream role = .ok r ∧
      FrameReader.Breaks source r (whole.map (·.1)) fault r' := by
  refine ⟨_, exists_and_left.mpr ⟨spelled.reader limits device, ?_⟩⟩
  have complete := spelled.complete
  have numbers := spelled.numbers
  have fits : Within (effectiveLength readLimit) frames :=
    fun frame member => Nat.le_trans (spelled.within frame member) limits
  subst split
  rw [List.length_append, List.length_cons] at numbers
  refine FrameReader.breaks_of_frames yields rfl rfl complete.front_open
    (by simp only [Nat.zero_add]; omega)
    (fun frame member => fits frame (List.mem_append_left _ member)) (Nat.min_le_right ..) front ?_
  intro there keyed (maxLength : there.maxLength = effectiveLength readLimit)
    (count : there.frames = 0 + whole.length) here
  rw [Nat.zero_add] at count
  refine barred there keyed count (by omega) ?_ maxLength here
  rw [maxLength]
  exact fits next (List.mem_append_right _ (List.mem_cons_self ..))

/-- After its tag, a cut connection is read up to the cut. -/
theorem Spelled.breaks_of_cut (spelled : Spelled secret stream role limit frames tag key bytes)
    (limits : effectiveLength limit ≤ effectiveLength readLimit) (yields : source.Yields left)
    (cut : room < totalCost frames) {device : ρ}
    (front : left device = (bytesFrom key 0 frames).take room) :
    ∃ r r', FrameReader.make device readLimit secret stream role = .ok r ∧
      FrameReader.Breaks source r ((inside room frames).map (·.1)) .truncated r' := by
  obtain ⟨next, later, split, within, beyond⟩ := inside_split cut
  generalize inside room frames = whole at *
  rw [split, take_bytesFrom key 0 within beyond, Nat.zero_add] at front
  refine spelled.breaks_of_barred limits yields split ?_ front
  rintro there rfl count inRange short maxLength here
  rw [← count] at here
  refine FrameReader.openNext_of_cut yields inRange short ?_ (by omega) here
  rw [maxLength]
  exact Nat.min_le_right ..

end Frame

/-- The first bytes of a finished connection are read up to the cut: without a whole tag nothing is,
    and otherwise exactly the frames that are whole. -/
theorem Frame.Finished.read_of_cut {secret : Secret} {stream limit readLimit k : Nat} {role : Role}
    {frames : List Frame.Marked} {bytes : Bytes} {device : ρ}
    (finished : Frame.Finished secret stream role limit frames bytes)
    (yields : source.Yields left)
    (limits : Frame.effectiveLength limit ≤ Frame.effectiveLength readLimit)
    (cut : k < bytes.length) (given : left device = bytes.take k) :
    if k < Tag.length then ∃ device', Tag.read source device = (.error .truncated, device')
    else ∃ tag device' r, Tag.make secret stream role = .ok tag ∧
      Tag.read source device = (.ok tag, device') ∧
      FrameReader.make device' readLimit secret stream role = .ok r ∧
      r.FailsWith source ((Frame.inside (k - Tag.length) frames).map (·.1)) .truncated := by
  obtain ⟨tag, key, spelled⟩ := finished.spelled (List.ne_nil_of_length_pos (by omega))
  have size : tag.toBytes.length = Tag.length := Block.length_toBytes tag
  split
  next early =>
    refine Tag.read_of_short yields ?_
    rw [given, List.length_take]
    omega
  next late =>
    have total := congrArg List.length spelled.bytes
    rw [List.length_append, size, Frame.length_bytesFrom] at total
    rw [spelled.bytes, List.take_append, size, List.take_of_length_le (by omega)] at given
    obtain ⟨device', read, rest⟩ := Tag.read_of_front yields given
    obtain ⟨r, r', made, breaks⟩ := spelled.breaks_of_cut limits yields (by omega) rest
    exact ⟨tag, device', r, spelled.tagged, read, made, breaks.failsWith⟩

end Courier
