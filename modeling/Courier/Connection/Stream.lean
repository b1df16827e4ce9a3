import Courier.Connection.Fault
import Courier.Gathered

/-! # Byte sinks and sources

A device is a state machine: writing offers it bytes, of which it takes some
number, and reading asks it for at most so many bytes. Writing all of a piece
and reading exactly a piece repeat these steps. A device that is interrupted
repeats the step itself, so every step either makes progress or ends the
repetition.
-/

namespace Courier

/-- A byte sink with states `δ`. -/
structure Sink (δ : Type) where
  /-- Offer bytes; the answer is how many of them were taken, from the front. -/
  write : Bytes → δ → Except DeviceFault Nat × δ
  /-- Hand over everything taken so far. -/
  flush : δ → Except DeviceFault Unit × δ

/-- A sink and the bytes that it has taken. -/
structure Outlet (δ : Type) where
  device : δ
  gathered : Gathered := .empty

def Outlet.taken {δ : Type} (outlet : Outlet δ) : Bytes :=
  outlet.gathered.toBytes

namespace Sink

variable {δ : Type} (sink : Sink δ)

/-- Offer bytes once and record those taken. -/
def offer (data : Bytes) (outlet : Outlet δ) : Except DeviceFault Nat × Outlet δ :=
  match sink.write data outlet.device with
  | (.ok count, device) => (.ok count, ⟨device, outlet.gathered.add (data.take count)⟩)
  | (.error fault, device) => (.error fault, { outlet with device })

/-- Offer `data` until all of it is taken. A sink that takes nothing has failed. -/
def writeAll (data : Bytes) (outlet : Outlet δ) : Except DeviceFault Unit × Outlet δ :=
  match data with
  | [] => (.ok (), outlet)
  | byte :: rest =>
      match sink.offer (byte :: rest) outlet with
      | (.ok 0, outlet) => (.error ⟨.writeZero, "failed to write whole buffer"⟩, outlet)
      | (.ok (count + 1), outlet) => writeAll (rest.drop count) outlet
      | (.error fault, outlet) => (.error fault, outlet)
  termination_by data.length
  decreasing_by simp only [List.length_drop, List.length_cons]; omega

def flushAll (outlet : Outlet δ) : Except DeviceFault Unit × Outlet δ :=
  let (result, device) := sink.flush outlet.device
  (result, { outlet with device })

end Sink

/-- A byte source with states `ρ`. -/
structure Source (ρ : Type) where
  /-- Ask for at most so many bytes; no bytes means that the source has ended. -/
  read : Nat → ρ → Except DeviceFault Bytes × ρ

namespace Source

variable {ρ : Type} (source : Source ρ)

/-- Ask for at most `limit` bytes; whatever comes beyond them is dropped. -/
def ask (limit : Nat) (device : ρ) : Except DeviceFault Bytes × ρ :=
  match source.read limit device with
  | (.ok bytes, device) => (.ok (bytes.take limit), device)
  | (.error fault, device) => (.error fault, device)

/-- Ask until `count` bytes have come. -/
def readExact (count : Nat) (device : ρ) : Except DeviceFault Bytes × ρ :=
  match count with
  | 0 => (.ok [], device)
  | count + 1 =>
      match source.ask (count + 1) device with
      | (.ok [], device) => (.error ⟨.unexpectedEnd, "failed to fill whole buffer"⟩, device)
      | (.ok (byte :: bytes), device) =>
          match readExact (count - bytes.length) device with
          | (.ok rest, device) => (.ok (byte :: bytes ++ rest), device)
          | (.error fault, device) => (.error fault, device)
      | (.error fault, device) => (.error fault, device)
  termination_by count

end Source

end Courier
