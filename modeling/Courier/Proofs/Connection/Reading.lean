import Courier.Connection.FrameReader
import Courier.Proofs.Connection.Frame
import Courier.Proofs.Connection.Stream

/-! # What a frame reader accepts

Each part that is read from a source can be taken back to the bytes that it came
from, and the bytes of a sealed part are read as that part. So a frame that is
opened is the one frame with its payload and mark under the next number, and a
reader that reaches the end of a connection has gone through the frames of a
complete connection and nothing more.
-/

namespace Courier

variable {ρ : Type} {source : Source ρ} {left : ρ → Bytes}

/-- The tag at the front of what is left is read. -/
theorem Tag.read_of_front (yields : source.Yields left) {device : ρ} {tag : Tag} {rest : Bytes}
    (front : left device = tag.toBytes ++ rest) :
    ∃ device', Tag.read source device = (.ok tag, device') ∧ left device' = rest := by
  obtain ⟨device', answer, after⟩ := Source.readExact_eq yields Tag.length device
  have size : tag.toBytes.length = Tag.length := Block.length_toBytes tag
  rw [front, List.length_append, size, if_pos (Nat.le_add_right _ _), ← size, List.take_left]
    at answer
  rw [front, ← size, List.drop_left] at after
  refine ⟨device', ?_, after⟩
  rw [Tag.read, ← size, answer]
  simp only [Block.ofBytes_toBytes]

namespace FrameReader

/-- The key of a reader, and what it starts from. -/
theorem make_eq_ok_iff (device : ρ) (transportLimit : Nat) (secret : Secret) (stream : Nat)
    (role : Role) (r : FrameReader ρ) :
    make device transportLimit secret stream role = .ok r ↔
      Frame.overhead < Frame.effectiveLength transportLimit ∧
        ∃ key, secret.derive (.frameKey role stream) = .ok key ∧
          r = { device, key, maxLength := Frame.effectiveLength transportLimit } := by
  simp only [make]
  by_cases room : Frame.effectiveLength transportLimit ≤ Frame.overhead
  · simp [room, Nat.not_lt.mpr room]
  · cases derived : secret.derive (.frameKey role stream) with
    | error fault => simp [room]
    | ok key => simp [room, eq_comm, Nat.lt_of_not_le room]

/-! ## Parts -/

/-- A part that was read stood sealed at the front of what was left. -/
theorem sealed_of_readPart (yields : source.Yields left) {r : FrameReader ρ} {part : Frame.Part}
    {length : Nat} {device device' : ρ} {bytes : Bytes}
    (read : r.readPart source part length device = (.ok bytes, device')) :
    bytes.length = length ∧
      left device = Frame.sealPart r.key r.frames part bytes ++ left device' := by
  obtain ⟨last, answer, after⟩ :=
    Source.readExact_eq yields (length + CounterMode.codeLength) device
  by_cases enough : length + CounterMode.codeLength ≤ (left device).length
  · rw [if_pos enough] at answer
    simp only [readPart, answer] at read
    split at read
    next opened =>
      simp only [Prod.mk.injEq, Except.ok.injEq] at read
      obtain ⟨rfl, rfl⟩ := read
      have front := (Frame.openPart?_eq_some_iff _ _ _ _ _).mp opened
      constructor
      · have sizes := congrArg List.length front
        rw [Frame.length_sealPart, List.length_take, Nat.min_eq_left enough] at sizes
        omega
      · rw [← front, after, List.take_append_drop]
    · cases read
  · rw [if_neg enough] at answer
    simp [readPart, answer] at read

/-- A sealed part at the front of what is left is read as what was sealed. -/
theorem readPart_of_sealed (yields : source.Yields left) (r : FrameReader ρ) (part : Frame.Part)
    {bytes rest : Bytes} {device : ρ}
    (front : left device = Frame.sealPart r.key r.frames part bytes ++ rest) :
    ∃ device', r.readPart source part bytes.length device = (.ok bytes, device') ∧
      left device' = rest := by
  obtain ⟨device', answer, after⟩ :=
    Source.readExact_eq yields (bytes.length + CounterMode.codeLength) device
  have size : (Frame.sealPart r.key r.frames part bytes).length =
      bytes.length + CounterMode.codeLength := Frame.length_sealPart _ _ _ _
  rw [front, ← size, List.drop_left] at after
  rw [front, List.length_append, size, if_pos (Nat.le_add_right _ _), ← size, List.take_left]
    at answer
  have opened := (Frame.openPart?_eq_some_iff r.key r.frames part _ bytes).mpr rfl
  exact ⟨device', by rw [readPart, ← size, answer]; simp only [opened], after⟩

/-! ## Frames -/

/-- A frame that was opened is the frame of its payload and mark under the reader's next number. -/
theorem frame_of_openNext (yields : source.Yields left) {r : FrameReader ρ} {payload : Bytes}
    {final : Bool} {device' : ρ} (room : Frame.overhead ≤ r.maxLength)
    (opened : r.openNext source = (.ok (payload, final), device')) :
    r.frames ≤ Frame.maxNumber ∧ payload.length + Frame.overhead ≤ r.maxLength ∧
      left r.device = Frame.toBytes r.key r.frames payload final ++ left device' := by
  simp only [openNext] at opened
  split at opened
  · cases opened
  next inRange =>
    split at opened
    · cases opened
    next headerBytes afterHeader headerRead =>
      split at opened
      · cases opened
      next header decoded =>
        split at opened
        · cases opened
        next short =>
          split at opened
          · cases opened
          next payloadRead =>
            simp only [Prod.mk.injEq, Except.ok.injEq] at opened
            obtain ⟨⟨rfl, rfl⟩, rfl⟩ := opened
            obtain ⟨-, headerFront⟩ := sealed_of_readPart yields headerRead
            obtain ⟨size, payloadFront⟩ := sealed_of_readPart yields payloadRead
            have spelled := (Frame.Header.decode_eq_ok_iff _ _).mp decoded
            refine ⟨by omega, by omega, ?_⟩
            have same : Frame.Header.ofPayload header.length.toNat header.flags.final = header := by
              simp [Frame.Header.ofPayload]
            rw [headerFront, payloadFront, Frame.toBytes, size, same, spelled, List.append_assoc]

/-- The bytes of a frame that is short enough are opened as that frame. -/
theorem openNext_of_frame (yields : source.Yields left) {r : FrameReader ρ} {payload rest : Bytes}
    {final : Bool} (inRange : r.frames ≤ Frame.maxNumber)
    (short : payload.length + Frame.overhead ≤ r.maxLength)
    (limited : r.maxLength ≤ Frame.maxLength)
    (front : left r.device = Frame.toBytes r.key r.frames payload final ++ rest) :
    ∃ device', r.openNext source = (.ok (payload, final), device') ∧ left device' = rest := by
  have small : payload.length < UInt16.size := by
    simp only [Frame.overhead, Frame.maxLength] at short limited
    simp only [UInt16.size]
    omega
  rw [Frame.toBytes, List.append_assoc] at front
  obtain ⟨afterHeader, headerRead, headerLeft⟩ := readPart_of_sealed yields r .header front
  obtain ⟨last, payloadRead, payloadLeft⟩ := readPart_of_sealed yields r .payload headerLeft
  have decoded := (Frame.Header.decode_eq_ok_iff _ _).mpr
    (rfl : (Frame.Header.ofPayload payload.length final).encode = _)
  have size := Frame.Header.length_ofPayload small final
  rw [Frame.Header.length_encode] at headerRead
  refine ⟨last, ?_, payloadLeft⟩
  have notShort : ¬ r.maxLength - Frame.overhead < payload.length := by omega
  simp only [openNext, if_neg (Nat.not_lt.mpr inRange), headerRead, decoded, size, if_neg notShort,
    payloadRead]
  rfl

/-! ## Whole connections -/

/-- The reader after a frame was opened. -/
def advanced (r : FrameReader ρ) (device : ρ) (final : Bool) : FrameReader ρ :=
  { r with device, frames := r.frames + 1, finished := final }

theorem next_of_opened {r : FrameReader ρ} {payload : Bytes} {final : Bool} {device' : ρ}
    (sound : r.faulted = false) (unfinished : r.finished = false)
    (opened : r.openNext source = (.ok (payload, final), device')) :
    r.next source =
      (.ok (if final && payload.isEmpty then none else some payload),
        r.advanced device' final) := by
  simp [next, sound, unfinished, opened, advanced]

/-- An answer of a reader that was not finished is what comes of one more opened frame. -/
theorem opened_of_next {r r' : FrameReader ρ} {answer : Option Bytes}
    (unfinished : r.finished = false) (answered : r.next source = (.ok answer, r')) :
    ∃ payload final device', r.openNext source = (.ok (payload, final), device') ∧
      answer = (if final && payload.isEmpty then none else some payload) ∧
      r.faulted = false ∧ r' = r.advanced device' final := by
  simp only [next, unfinished] at answered
  split at answered
  · cases answered
  next sound =>
    simp only [Bool.false_eq_true, if_false] at answered
    split at answered
    · cases answered
    next payload final device' opened =>
      simp only [Prod.mk.injEq, Except.ok.injEq] at answered
      exact ⟨payload, final, device', opened, answered.1.symm, by simpa using sound,
        answered.2.symm⟩

/-- Reading up to the end of a connection: the payloads on the way, and the reader after it. -/
inductive Drains (source : Source ρ) : FrameReader ρ → List Bytes → FrameReader ρ → Prop where
  | done {r r' : FrameReader ρ} (ended : r.next source = (.ok none, r')) : Drains source r [] r'
  | more {r between r' : FrameReader ρ} {payload : Bytes} {payloads : List Bytes}
      (answered : r.next source = (.ok (some payload), between))
      (rest : Drains source between payloads r') : Drains source r (payload :: payloads) r'

/-- A finished reader is at the end already. -/
theorem Drains.of_finished {r r' : FrameReader ρ} {payloads : List Bytes}
    (drains : Drains source r payloads r') (finished : r.finished = true) :
    payloads = [] ∧ r' = r := by
  cases drains with
  | done ended =>
      simp only [next, finished] at ended
      split at ended
      · cases ended
      · exact ⟨rfl, by simpa using ended.symm⟩
  | more answered rest =>
      simp only [next, finished] at answered
      split at answered <;> simp at answered

/-- Going through to the end means going through the frames of a complete connection. -/
theorem frames_of_drains (yields : source.Yields left) {r r' : FrameReader ρ}
    {payloads : List Bytes} (drains : Drains source r payloads r') (unfinished : r.finished = false)
    (room : Frame.overhead ≤ r.maxLength) :
    ∃ frames, Frame.Complete frames ∧ r.frames + frames.length ≤ Frame.maxNumber + 1 ∧
      Frame.Within r.maxLength frames ∧ payloads = Frame.delivered frames ∧
      left r.device = Frame.bytesFrom r.key r.frames frames ++ left r'.device := by
  induction drains with
  | done ended =>
      obtain ⟨payload, final, device', opened, answer, -, rfl⟩ := opened_of_next unfinished ended
      obtain ⟨inRange, short, front⟩ := frame_of_openNext yields room opened
      have closing : final = true ∧ payload = [] := by
        cases final <;> cases payload <;> simp at answer ⊢
      obtain ⟨rfl, rfl⟩ := closing
      refine ⟨[([], true)], .last [], by simp; omega, ?_, rfl, ?_⟩
      · simpa [Frame.Within] using short
      · simpa [Frame.bytesFrom, advanced] using front
  | @more r between r' payload payloads answered drains ih =>
      obtain ⟨opened, final, device', parts, answer, -, rfl⟩ := opened_of_next unfinished answered
      obtain ⟨inRange, short, front⟩ := frame_of_openNext yields room parts
      cases final with
      | false =>
          simp only [Bool.false_and, Bool.false_eq_true, if_false, Option.some.injEq] at answer
          subst answer
          obtain ⟨frames, complete, numbers, within, rfl, bytes⟩ := ih rfl room
          refine ⟨(payload, false) :: frames, .more payload complete, ?_, ?_, rfl, ?_⟩
          · simp only [advanced] at numbers
            simp only [List.length_cons]
            omega
          · intro frame member
            rcases List.mem_cons.mp member with rfl | member
            · exact short
            · exact within frame member
          · rw [front, Frame.bytesFrom, List.append_assoc]
            exact congrArg _ bytes
      | true =>
          obtain ⟨rfl, rfl⟩ := drains.of_finished rfl
          have kept : payload = opened ∧ opened ≠ [] := by
            cases opened <;> simp at answer ⊢
            exact answer
          obtain ⟨rfl, some⟩ := kept
          refine ⟨[(payload, true)], .last payload, by simp; omega, ?_, ?_, ?_⟩
          · simpa [Frame.Within] using short
          · simp [Frame.delivered, some]
          · simpa [Frame.bytesFrom, advanced] using front

/-- The bytes of a complete connection are gone through to the end, whatever follows them. -/
theorem drains_of_frames (yields : source.Yields left) {frames : List Frame.Marked}
    (complete : Frame.Complete frames) {r : FrameReader ρ} {rest : Bytes}
    (sound : r.faulted = false) (unfinished : r.finished = false)
    (numbers : r.frames + frames.length ≤ Frame.maxNumber + 1)
    (within : Frame.Within r.maxLength frames) (limited : r.maxLength ≤ Frame.maxLength)
    (front : left r.device = Frame.bytesFrom r.key r.frames frames ++ rest) :
    ∃ r', Drains source r (Frame.delivered frames) r' ∧ left r'.device = rest := by
  induction complete generalizing r with
  | last payload =>
      simp only [Frame.bytesFrom, List.append_nil, List.length_singleton] at front numbers
      obtain ⟨device', opened, after⟩ := openNext_of_frame yields (by omega)
        (within (payload, true) (by simp)) limited front
      have answered := next_of_opened sound unfinished opened
      refine ⟨r.advanced device' true, ?_, after⟩
      cases payload with
      | nil => exact .done answered
      | cons byte bytes =>
          have ended : (r.advanced device' true).next source =
              (.ok none, r.advanced device' true) := by simp [next, advanced, sound]
          exact .more answered (.done ended)
  | @more payload frames complete ih =>
      simp only [Frame.bytesFrom, List.append_assoc, List.length_cons] at front numbers
      obtain ⟨device', opened, after⟩ := openNext_of_frame yields (by omega)
        (within (payload, false) (by simp)) limited front
      obtain ⟨r', drains, last⟩ := ih (r := r.advanced device' false) sound rfl
        (by simp only [advanced]; omega) within.tail limited after
      exact ⟨r', .more (next_of_opened sound unfinished opened) drains, last⟩

/-! ## The answers of a reader -/

/-- The answers of a reader up to the end, none of them a fault. -/
theorem readAll_of_drains {r r' : FrameReader ρ} {payloads : List Bytes}
    (drains : Drains source r payloads r') :
    (r.readAll source 0).map (·.1) =
        payloads.map (fun payload => .ok (some payload)) ++ [.ok none] ∧
      (r.readAll source 0).getLast?.map (·.2) = some r' := by
  induction drains with
  | done ended => rw [readAll, ended]; simp
  | more answered rest ih =>
      rw [readAll, answered]
      obtain ⟨answers, last⟩ := ih
      refine ⟨by simp [answers], ?_⟩
      rw [List.getLast?_cons]
      cases found : (readAll source 0 _).getLast? with
      | none => simp [found] at last
      | some answer => simpa [found] using last

/-- Answers that end well come of going through to the end. -/
theorem drains_of_readAll {r : FrameReader ρ} {payloads : List Bytes}
    (answers : (r.readAll source 0).map (·.1) =
      payloads.map (fun payload => .ok (some payload)) ++ [.ok none]) :
    ∃ r', Drains source r payloads r' := by
  induction payloads generalizing r with
  | nil =>
      rw [readAll] at answers
      split at answers
      · simp at answers
      next result r' _ answered =>
        simp only [List.map_cons, List.map_nil, List.nil_append, List.cons.injEq] at answers
        obtain ⟨rfl, -⟩ := answers
        exact ⟨r', .done answered⟩
  | cons payload payloads ih =>
      rw [readAll] at answers
      split at answers
      next first between answered =>
        simp only [List.map_cons, List.cons_append, List.cons.injEq, Except.ok.injEq,
          Option.some.injEq] at answers
        obtain ⟨rfl, answers⟩ := answers
        obtain ⟨r', rest⟩ := ih answers
        exact ⟨r', .more answered rest⟩
      next result r' _ answered => simp at answers

end FrameReader

end Courier
