import Courier.Secret.Basic

/-! # Connection tags

The first sixteen bytes of a connection: its stream number, padded with zeros
to one block and enciphered under the tag key of the sender. The key owner
recognises a tag by deciphering it and checking the padding; to everyone else
it is one unknown block.
-/

namespace Courier

abbrev Tag := Block

namespace Tag

def length : Nat := 16

/-- A stream number padded to one block. -/
def plain (stream : Nat) : Block :=
  ⟨.ofNat stream, ⟨0, 0, 0, 0⟩, ⟨0, 0, 0, 0⟩, ⟨0, 0, 0, 0⟩⟩

def encode (key : Secret) (stream : Nat) : Except CryptoFault Tag :=
  if maxContext < stream then
    .error (.contextOutOfRange stream)
  else if key.isBlank then
    .error .blankSecret
  else
    .ok (key.encipher (plain stream))

/-- Put the tag of a stream number in place of the first sixteen bytes of `buffer`. The second part
    is the buffer afterwards. -/
def stamp (buffer : Bytes) (key : Secret) (stream : Nat) : Except CryptoFault Unit × Bytes :=
  if buffer.length < length then
    (.error (.bufferTooShort length buffer.length), buffer)
  else
    match encode key stream with
    | .ok tag => (.ok (), tag.toBytes ++ buffer.drop length)
    | .error fault => (.error fault, buffer)

/-- The buffer stamped with a tag. -/
def write (buffer : Bytes) (key : Secret) (stream : Nat) : Except CryptoFault Bytes :=
  let (outcome, stamped) := stamp buffer key stream
  outcome.map fun _ => stamped

/-- The stream number of a tag, if it was made under `key`. -/
def decode (tag : Tag) (key : Secret) : Option Nat :=
  if key.isBlank then
    none
  else
    let block := key.decipher tag
    let stream := block.c0.toNat
    if block = plain stream then some stream else none

end Tag

end Courier
