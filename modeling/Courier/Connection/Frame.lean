import Courier.Connection.Fault
import Courier.Secret.Derivation

/-! # Frames

A connection is a tag followed by frames, and a frame is a sealed header
followed by a sealed payload. The header gives the length of the payload and
marks the final frame. Both parts are sealed under the frame key of the
connection, with a nonce made of the frame number and the part, so no nonce
occurs twice under one key.
-/

namespace Courier

namespace Frame

/-- Length of a header before it is sealed. -/
def headerLength : Nat := 4

/-- What a frame costs beyond its payload: the header and two codes. -/
def overhead : Nat := 36

/-- Longest frame of any connection, overhead included. -/
def maxLength : Nat := 16384

def maxNumber : Nat := maxContext

/-- Shortest capacity that carries a record: a tag and two frames. -/
def minConnectionLength : Nat := 88

/-- The frame limit where the transport allows frames of `transportLimit` bytes. -/
def effectiveLength (transportLimit : Nat) : Nat :=
  min transportLimit maxLength

/-- The two sealed parts of a frame. -/
inductive Part where
  | header
  | payload
  deriving DecidableEq, Repr

/-- The byte that tells the parts of a frame apart. -/
def Part.mark : Part → UInt8
  | header => 0
  | payload => 1

/-- The nonce of one part of one frame. -/
def nonce (number : Nat) (part : Part) : Bytes :=
  bigEndian 8 number ++ [part.mark, 0, 0, 0]

/-- The flags of a header. Only the mark of the final frame is defined. -/
structure Flags where
  final : Bool
  deriving DecidableEq, Repr

namespace Flags

def empty : Flags := ⟨false⟩

def finalFrame : Flags := ⟨true⟩

def toByte (flags : Flags) : UInt8 :=
  if flags.final then 1 else 0

/-- The flags of a byte without unknown flags. -/
def ofByte? (byte : UInt8) : Option Flags :=
  if byte = 0 then some empty else if byte = 1 then some finalFrame else none

end Flags

structure Header where
  length : UInt16
  flags : Flags
  deriving DecidableEq, Repr

namespace Header

/-- The header of a payload of `length` bytes. -/
def ofPayload (length : Nat) (final : Bool) : Header :=
  ⟨UInt16.ofNat length, ⟨final⟩⟩

def encode (header : Header) : Bytes :=
  bigEndian 2 header.length.toNat ++ [header.flags.toByte, 0]

/-- The header that exactly four bytes spell; the last byte is reserved and must be zero. -/
def decode (bytes : Bytes) : Except ConnectionFault Header :=
  match bytes with
  | [high, low, flags, 0] =>
      match Flags.ofByte? flags with
      | some flags => .ok ⟨UInt16.ofNat (ofBigEndian [high, low]), flags⟩
      | none => .error .malformedHeader
  | _ => .error .malformedHeader

end Header

/-- One part of frame `number`, sealed under the frame key. A part is far below the limit of the
    cipher. -/
def sealPart (key : Secret) (number : Nat) (part : Part) (bytes : Bytes) : Bytes :=
  key.sealed (nonce number part) [] bytes

/-- The bytes behind one sealed part of frame `number`. -/
def openPart? (key : Secret) (number : Nat) (part : Part) (bytes : Bytes) : Option Bytes :=
  key.opened? (nonce number part) [] bytes

/-- Frame `number` with this payload. -/
def toBytes (key : Secret) (number : Nat) (payload : Bytes) (final : Bool) : Bytes :=
  sealPart key number .header (Header.ofPayload payload.length final).encode ++
    sealPart key number .payload payload

end Frame

end Courier
