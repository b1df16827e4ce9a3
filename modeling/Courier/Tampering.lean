import Courier.Bytes

/-! # Tampering

Changes that bytes may suffer on the way: what a broken medium or an attacker
can do to a connection.
-/

namespace Courier

inductive Tampering where
  /-- Change the bits of `mask` at a place, counted round the bytes. -/
  | flip (place : Nat) (mask : UInt8)
  /-- Keep only so many bytes. -/
  | keep (count : Nat)
  /-- Lose so many bytes at the end. -/
  | cut (count : Nat)
  /-- Lose so many bytes at the front. -/
  | skip (count : Nat)
  | append (more : Bytes)
  /-- Put a piece over the bytes at a place; what would come beyond them is lost. -/
  | overwrite (place : Nat) (piece : Bytes)
  /-- Exchange two ranges, byte by byte, where both bytes are there. -/
  | swap (a b count : Nat)
  deriving DecidableEq, Repr

namespace Tampering

def apply (bytes : Bytes) : Tampering → Bytes
  | flip place mask => bytes.modify (place % bytes.length) (· ^^^ mask)
  | keep count => bytes.take count
  | cut count => bytes.take (bytes.length - count)
  | skip count => bytes.drop count
  | append more => bytes ++ more
  | overwrite place piece =>
      bytes.take place ++ piece.take (bytes.length - place) ++ bytes.drop (place + piece.length)
  | swap a b count =>
      ((List.range (min count bytes.length)).foldl (fun bytes i => bytes.swapIfInBounds (a + i) (b + i))
        bytes.toArray).toList

end Tampering

end Courier
