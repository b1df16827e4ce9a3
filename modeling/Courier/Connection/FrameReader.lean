import Courier.Connection.Context
import Courier.Connection.Frame
import Courier.Connection.Stream
import Courier.Tag

/-! # Reading the frames of a connection

The tag is read first, so that its sender can be recognised before there are
keys. Then frames are opened in order, each under the nonce of its position.
A wrong code, a malformed header or an early end faults the reader for good.
-/

namespace Courier

variable {ρ : Type}

/-- Read the tag from the start of a source. -/
def Tag.read (source : Source ρ) (device : ρ) : Except ConnectionFault Tag × ρ :=
  match source.readExact Tag.length device with
  | (.ok bytes, device) => (.ok (.ofBytes bytes), device)
  | (.error fault, device) => (.error (.ofDevice fault), device)

structure FrameReader (ρ : Type) where
  device : ρ
  key : Secret
  /-- Frames opened; the number of the next frame. -/
  frames : Nat := 0
  /-- Longest frame, overhead included. -/
  maxLength : Nat
  finished : Bool := false
  faulted : Bool := false

namespace FrameReader

/-- A reader for one stream of the sender `role`, placed after the tag. -/
def make (device : ρ) (transportLimit : Nat) (secret : Secret) (stream : Nat) (role : Role) :
    Except ConnectionFault (FrameReader ρ) :=
  let maxLength := Frame.effectiveLength transportLimit
  if maxLength ≤ Frame.overhead then
    .error (.invalidFrameLength maxLength)
  else
    match secret.derive (.frameKey role stream) with
    | .ok key => .ok { device, key, maxLength }
    | .error fault => .error (.crypto fault)

/-- A reader for what the other side of a context sent. -/
def ofContext (context : Context) (device : ρ) (transportLimit : Nat) :
    Except ConnectionFault (FrameReader ρ) :=
  make device transportLimit context.secret context.stream context.role.peer

/-- Read and open one part of the next frame, of `length` bytes. -/
def readPart (source : Source ρ) (r : FrameReader ρ) (part : Frame.Part) (length : Nat)
    (device : ρ) : Except ConnectionFault Bytes × ρ :=
  match source.readExact (length + CounterMode.codeLength) device with
  | (.error fault, device) => (.error (.ofDevice fault), device)
  | (.ok bytes, device) =>
      match Frame.openPart? r.key r.frames part bytes with
      | some bytes => (.ok bytes, device)
      | none => (.error .authenticationFailed, device)

/-- Read and open the next frame: its payload, and whether it is the final one. -/
def openNext (source : Source ρ) (r : FrameReader ρ) :
    Except ConnectionFault (Bytes × Bool) × ρ :=
  if Frame.maxNumber < r.frames then
    (.error .frameCounterExhausted, r.device)
  else
    match r.readPart source .header Frame.headerLength r.device with
    | (.error fault, device) => (.error fault, device)
    | (.ok bytes, device) =>
        match Frame.Header.decode bytes with
        | .error fault => (.error fault, device)
        | .ok header =>
            if r.maxLength - Frame.overhead < header.length.toNat then
              (.error .malformedHeader, device)
            else
              match r.readPart source .payload header.length.toNat device with
              | (.error fault, device) => (.error fault, device)
              | (.ok payload, device) => (.ok (payload, header.flags.final), device)

/-- The next payload; none after the final frame. A final frame with a payload yields it first. -/
def next (source : Source ρ) (r : FrameReader ρ) :
    Except ConnectionFault (Option Bytes) × FrameReader ρ :=
  if r.faulted then
    (.error .faulted, r)
  else if r.finished then
    (.ok none, r)
  else
    match r.openNext source with
    | (.error fault, device) => (.error fault, { r with device, faulted := true })
    | (.ok (payload, final), device) =>
        (.ok (if final && payload.isEmpty then none else some payload),
          { r with device, frames := r.frames + 1, finished := final })

/-- A payload is returned only while frame numbers are left, and uses up one. -/
theorem next_frames {source : Source ρ} {r r' : FrameReader ρ} {payload : Bytes}
    (h : r.next source = (.ok (some payload), r')) :
    r.frames ≤ Frame.maxNumber ∧ r'.frames = r.frames + 1 := by
  unfold next at h
  split at h
  · simp at h
  · split at h
    · simp at h
    · split at h
      · simp at h
      next opened =>
        have left : r.frames ≤ Frame.maxNumber := by
          unfold openNext at opened
          split at opened
          · simp at opened
          · omega
        simp only [Prod.mk.injEq] at h
        exact ⟨left, by rw [← h.2]⟩

/-- Read until the first answer that is not a payload, and then `extra` more times. Every answer
    comes with the reader after it. -/
def readAll (source : Source ρ) (extra : Nat) (r : FrameReader ρ) :
    List (Except ConnectionFault (Option Bytes) × FrameReader ρ) :=
  match _h : r.next source with
  | (.ok (some payload), r) => (.ok (some payload), r) :: readAll source extra r
  | (result, r) =>
      match extra with
      | 0 => [(result, r)]
      | extra + 1 => (result, r) :: readAll source extra r
  termination_by (extra, Frame.maxNumber + 1 - r.frames)
  decreasing_by
    · obtain ⟨left, next⟩ := next_frames _h
      exact Prod.Lex.right _ (by rw [next]; omega)
    · exact Prod.Lex.left _ _ (by omega)

end FrameReader

end Courier
