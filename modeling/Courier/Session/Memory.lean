import Courier.Connection.FrameWriter
import Courier.Session.Collaborators

/-! # Connections in memory

The two ends of a connection whose bytes stay in memory. Both can be told to
fail: the sink after so many bytes, by taking nothing, or when flushed; the
source at a given place; either end when released. Both can be told to move
only a few bytes at a time.
-/

namespace Courier

namespace Memory

/-- How a writing end in memory misbehaves. -/
structure WriteLimits where
  /-- Writing fails once so many bytes are held. -/
  failAfter : Option Nat := none
  /-- Nothing is taken once so many bytes are held. -/
  zeroAfter : Option Nat := none
  /-- Most bytes taken at a time. -/
  chunk : Option Nat := none
  failsFlush : Bool := false
  failsDispose : Bool := false
  deriving DecidableEq, Repr

def writeFault : DeviceFault := ⟨.brokenPipe, "injected write failure"⟩

def flushFault : DeviceFault := ⟨.brokenPipe, "injected flush failure"⟩

def readFault : DeviceFault := ⟨.brokenPipe, "injected read failure"⟩

/-- What comes of releasing an end that may have been told to fail. -/
def released (fails : Bool) : Except ConnectionFault Unit :=
  if fails then .error (.device "injected dispose failure") else .ok ()

/-- How many bytes a sink that holds `held` of them takes at most; `none` if writing fails, without
    a number if it takes all it is offered. -/
def WriteLimits.room? (limits : WriteLimits) (held : Nat) : Option (Option Nat) :=
  let left := fun (bound : Option Nat) => bound.map (· - held)
  if left limits.failAfter = some 0 then
    none
  else
    some ((left limits.failAfter).merge min ((left limits.zeroAfter).merge min limits.chunk))

/-- The writing end of a connection in memory. -/
structure Outbound where
  gathered : Gathered := .empty
  /-- What each release told: exception. -/
  disposals : List Bool := []
  deriving DecidableEq, Repr

def Outbound.bytes (out : Outbound) : Bytes :=
  out.gathered.toBytes

/-- What the first release told, which is the one that counts. -/
def Outbound.disposed (out : Outbound) : Option Bool :=
  out.disposals.head?

/-- Seconds that a connection in memory may take. -/
def latencySeconds : Nat := 60

def sink (limits : WriteLimits) : Sink Outbound where
  write data out :=
    match limits.room? out.gathered.size with
    | none => (.error writeFault, out)
    | some room =>
        let taken := room.elim data data.take
        (.ok taken.length, { out with gathered := out.gathered.add taken })
  flush out := if limits.failsFlush then (.error flushFault, out) else (.ok (), out)

def writingEnd (limits : WriteLimits) (capacity : Nat) (maxFrameLength : Nat := Frame.maxLength) :
    WritingEnd Outbound where
  capacity := capacity
  maxFrameLength := maxFrameLength
  sink := sink limits
  dispose exception out :=
    (released limits.failsDispose, { out with disposals := out.disposals ++ [exception] })

/-- The bytes of a whole connection with these payloads; if `final`, the last one is in the final
    frame. -/
def connection (context : Context) (payloads : List Bytes) (final : Bool) :
    Except ConnectionFault Bytes := do
  let writer ← FrameWriter.ofContext context ({} : Outbound) (UInt64.size - 1) Frame.maxLength
  let (_, writer) := writer.writeEach (sink {}) (Frame.marked final payloads)
  return (writer.finish (sink {})).2.outlet.taken

/-- How a reading end in memory misbehaves. -/
structure ReadLimits where
  /-- Reading fails at this place. -/
  failAt : Option Nat := none
  /-- Most bytes given at a time. -/
  chunk : Option Nat := none
  failsDispose : Bool := false
  deriving DecidableEq, Repr

/-- The reading end of a connection in memory. -/
structure Inbound where
  rest : Bytes
  consumed : Nat := 0
  /-- What each release told: exception and recognised. -/
  disposals : List (Bool × Bool) := []
  deriving DecidableEq, Repr

/-- What the first release told, which is the one that counts. -/
def Inbound.disposed (inb : Inbound) : Option (Bool × Bool) :=
  inb.disposals.head?

def source (limits : ReadLimits) : Source Inbound where
  read count inb :=
    let room := limits.failAt.map (· - inb.consumed)
    if room = some 0 ∧ 0 < count then
      (.error readFault, inb)
    else
      let within := fun (bound : Option Nat) (n : Nat) => bound.elim n (min n)
      let bytes := inb.rest.take (within limits.chunk (within room count))
      (.ok bytes,
        { inb with rest := inb.rest.drop bytes.length, consumed := inb.consumed + bytes.length })

def readingEnd (limits : ReadLimits) (maxFrameLength : Nat := Frame.maxLength) :
    ReadingEnd Inbound where
  maxFrameLength := maxFrameLength
  source := source limits
  dispose exception recognised inb :=
    (released limits.failsDispose,
      { inb with disposals := inb.disposals ++ [(exception, recognised)] })

end Memory

end Courier
