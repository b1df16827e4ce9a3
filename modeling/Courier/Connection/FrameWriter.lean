import Courier.Connection.Context
import Courier.Connection.Frame
import Courier.Connection.Stream
import Courier.Tag

/-! # Writing the frames of a connection

A frame writer seals payloads under one frame key and charges them against the
capacity of the connection. The tag goes out with the first frame. A frame that
the capacity, the frame limit or the frame numbers do not allow is refused
whole; a frame that the sink does not take whole faults the writer for good,
and its number is never used again.
-/

namespace Courier

/-- The tag of one stream of the sender `role`. -/
def Tag.make (secret : Secret) (stream : Nat) (role : Role) : Except CryptoFault Tag := do
  encode (← secret.derive (.tagKey role)) stream

structure FrameWriter (δ : Type) where
  outlet : Outlet δ
  key : Secret
  /-- The tag, until it has been written. -/
  pendingTag : Option Tag
  /-- Frames written; the number of the next frame. -/
  frames : Nat := 0
  /-- Bytes that the connection may still carry. -/
  remaining : Nat
  /-- Longest frame, overhead included. -/
  maxLength : Nat
  /-- Bytes written, tag included. -/
  written : Nat := 0
  /-- A final frame has been written, or the connection was closed. -/
  finished : Bool := false
  faulted : Bool := false

namespace FrameWriter

variable {δ : Type}

/-- A writer for one stream of the sender `role`. -/
def make (device : δ) (capacity transportLimit : Nat) (secret : Secret) (stream : Nat)
    (role : Role) : Except ConnectionFault (FrameWriter δ) :=
  let maxLength := Frame.effectiveLength transportLimit
  if maxLength ≤ Frame.overhead then
    .error (.invalidFrameLength maxLength)
  else
    let keys := do
      let tag ← Tag.make secret stream role
      let key ← secret.derive (.frameKey role stream)
      return (tag, key)
    match keys with
    | .ok (tag, key) =>
        .ok { outlet := { device }, key, pendingTag := some tag, remaining := capacity, maxLength }
    | .error fault => .error (.crypto fault)

/-- A writer for the local side of a context. -/
def ofContext (context : Context) (device : δ) (capacity transportLimit : Nat) :
    Except ConnectionFault (FrameWriter δ) :=
  make device capacity transportLimit context.secret context.stream context.role

/-- Largest payload of a single frame. -/
def maxPayload (w : FrameWriter δ) : Nat :=
  w.maxLength - Frame.overhead

/-- What the tag still costs. -/
def tagCost (w : FrameWriter δ) : Nat :=
  if w.pendingTag.isSome then Tag.length else 0

/-- Largest payload that leaves room for the empty final frame. -/
def payloadBudget (w : FrameWriter δ) : Nat :=
  min (w.remaining - (w.tagCost + 2 * Frame.overhead)) w.maxPayload

/-- What a payload of `length` bytes costs, with the tag if it is still due. -/
def cost (w : FrameWriter δ) (length : Nat) : Nat :=
  w.tagCost + Frame.overhead + length

/-- Why a payload of `length` bytes cannot be written. -/
def refusal? (w : FrameWriter δ) (length : Nat) : Option ConnectionFault :=
  if w.faulted then
    some .faulted
  else if w.finished then
    some .alreadyFinished
  else if w.maxPayload < length then
    some (.payloadTooLarge length w.maxPayload)
  else if Frame.maxNumber < w.frames then
    some .frameCounterExhausted
  else if w.remaining < w.cost length then
    some (.capacityExceeded (w.cost length) w.remaining)
  else
    none

/-- The bytes of the next frame, after the tag if it is still due. -/
def nextBytes (w : FrameWriter δ) (payload : Bytes) (final : Bool) : Bytes :=
  (w.pendingTag.elim [] Block.toBytes) ++ Frame.toBytes w.key w.frames payload final

def write (sink : Sink δ) (w : FrameWriter δ) (payload : Bytes) (final : Bool) :
    Except ConnectionFault Unit × FrameWriter δ :=
  match w.refusal? payload.length with
  | some fault => (.error fault, w)
  | none =>
      match sink.writeAll (w.nextBytes payload final) w.outlet with
      | (.error fault, outlet) => (.error (.ofDevice fault), { w with outlet, faulted := true })
      | (.ok (), outlet) =>
          (.ok (),
            { w with
              outlet
              pendingTag := none
              frames := w.frames + 1
              remaining := w.remaining - w.cost payload.length
              written := w.written + w.cost payload.length
              finished := final })

/-- Flush the sink of a writer that is done. -/
def flush (sink : Sink δ) (w : FrameWriter δ) : Except ConnectionFault Unit × FrameWriter δ :=
  match sink.flushAll w.outlet with
  | (.ok (), outlet) => (.ok (), { w with outlet, finished := true })
  | (.error fault, outlet) =>
      (.error (.ofDevice fault), { w with outlet, finished := true, faulted := true })

/-- Close the connection. If frames were written, none of them final, an empty final frame is
    written first; a connection without frames stays empty. -/
def finish (sink : Sink δ) (w : FrameWriter δ) : Except ConnectionFault Unit × FrameWriter δ :=
  if w.faulted then
    (.error .faulted, w)
  else if w.finished || w.pendingTag.isSome then
    w.flush sink
  else
    match w.write sink [] true with
    | (.ok (), w) => w.flush sink
    | (.error fault, w) => (.error fault, w)

theorem write_remaining_lt {sink : Sink δ} {w w' : FrameWriter δ} {payload : Bytes} {final : Bool}
    (h : w.write sink payload final = (.ok (), w')) : w'.remaining < w.remaining := by
  unfold write at h
  split at h
  · simp at h
  next fits =>
    split at h
    · simp at h
    · simp only [Prod.mk.injEq, true_and] at h
      have enough : w.cost payload.length ≤ w.remaining := by
        unfold refusal? at fits
        repeat' split at fits
        all_goals first | omega | simp at fits
      have positive : 0 < w.cost payload.length := by unfold cost Frame.overhead; omega
      rw [← h]
      show w.remaining - w.cost payload.length < w.remaining
      omega

/-- Write frames one after the other, up to the first that fails. -/
def writeEach (sink : Sink δ) : List (Bytes × Bool) → FrameWriter δ →
    Except ConnectionFault Unit × FrameWriter δ
  | [], w => (.ok (), w)
  | (payload, final) :: frames, w =>
      match w.write sink payload final with
      | (.ok (), w) => writeEach sink frames w
      | failed => failed

end FrameWriter

/-- The payloads as frames, with the mark of the final one on the last if `final`. -/
def Frame.marked (final : Bool) : List Bytes → List (Bytes × Bool)
  | [] => []
  | [payload] => [(payload, final)]
  | payload :: payloads => (payload, false) :: marked final payloads

end Courier
