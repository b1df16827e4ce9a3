import Courier.Hash.Digest

/-! # The keyed digest and password stretching

HMAC over the 48-byte digest, and PBKDF2 over that. A key is turned into two
digest states once; every message then continues from them.
-/

namespace Courier

/-- The two digest states that a key starts: one for the message, one for the result. -/
structure KeyedDigest where
  inner : Digest.State
  outer : Digest.State

namespace KeyedDigest

/-- Fill a key up to one block; a longer key is replaced by its digest first. -/
def keyBlock (key : Bytes) : Bytes :=
  let short := if key.length ≤ Digest.blockLength then key else digest key
  short ++ List.replicate (Digest.blockLength - short.length) 0

def ofKey (key : Bytes) : KeyedDigest :=
  let block := keyBlock key
  ⟨Digest.start.absorb (block.map (· ^^^ 0x36)), Digest.start.absorb (block.map (· ^^^ 0x5c))⟩

/-- The code of `message` under the key. -/
def code (k : KeyedDigest) (message : Bytes) : Bytes :=
  k.outer.finish Digest.blockLength (k.inner.finish Digest.blockLength message)

@[simp] theorem length_code (k : KeyedDigest) (message : Bytes) :
    (k.code message).length = Digest.length := rfl

/-- Sum of `total` and the next `count` codes of the chain that starts with `last`. -/
def chainSum (k : KeyedDigest) : (count : Nat) → (last total : Bytes) → Bytes
  | 0, _, total => total
  | count + 1, last, total =>
      let next := k.code last
      k.chainSum count next (xorBytes total next)

end KeyedDigest

def keyedDigest (key message : Bytes) : Bytes :=
  (KeyedDigest.ofKey key).code message

@[simp] theorem length_keyedDigest (key message : Bytes) :
    (keyedDigest key message).length = Digest.length := rfl

/-- The first 48 bytes derived from a password: the sum of the first `iterations` codes in the chain
    that starts with the code of the salt and the number 1. -/
def stretched (password salt : Bytes) (iterations : Nat) : Bytes :=
  let k := KeyedDigest.ofKey password
  let first := k.code (salt ++ bigEndian 4 1)
  k.chainSum (iterations - 1) first first

theorem KeyedDigest.length_chainSum (k : KeyedDigest) (count : Nat) (last total : Bytes)
    (h : total.length = Digest.length) : (k.chainSum count last total).length = Digest.length := by
  induction count generalizing last total with
  | zero => exact h
  | succ count ih => exact ih _ _ (by simp [h])

@[simp] theorem length_stretched (password salt : Bytes) (iterations : Nat) :
    (stretched password salt iterations).length = Digest.length :=
  KeyedDigest.length_chainSum _ _ _ _ (KeyedDigest.length_code _ _)

end Courier
