import Courier.Curve.KeyPair

/-! # Signatures

ECDSA over the digest of a message. The one-time scalar is not drawn but
derived from the private scalar and the digest by a chain of keyed digests, so
equal messages have equal signatures. Both halves of a signature are taken as
they come: no half of the range of `s` is preferred.
-/

namespace Courier

open Curve

/-- The two halves of a signature, neither of them zero. -/
structure Signature where
  r : Scalar
  s : Scalar
  deriving DecidableEq

/-- The state of the chain that one-time scalars are read from. -/
structure NonceChain where
  key : Bytes
  value : Bytes

namespace NonceChain

/-- Rekey the chain over `input`, set apart by `mark`. -/
def rekey (chain : NonceChain) (mark : UInt8) (input : Bytes) : NonceChain :=
  let key := keyedDigest chain.key (chain.value ++ mark :: input)
  ⟨key, keyedDigest key chain.value⟩

/-- The chain of a private scalar and a message representative. -/
def start (scalar representative : Scalar) : NonceChain :=
  let input :=
    bigEndian coordinateLength scalar.val ++ bigEndian coordinateLength representative.val
  let chain : NonceChain := ⟨List.replicate Digest.length 0, List.replicate Digest.length 1⟩
  (chain.rekey 0 input).rekey 1 input

def advance (chain : NonceChain) : NonceChain :=
  { chain with value := keyedDigest chain.key chain.value }

end NonceChain

namespace Signature

def representative (message : Bytes) : Scalar :=
  Fin.ofNat order (ofBigEndian (digest message))

/-- The signature that a one-time scalar gives, if neither half is zero. -/
def ofNonce? (scalar representative nonce : Scalar) : Option Signature := do
  let (x, _) ← ((Fraction.ofPoint generator).multiply nonce.val).coordinates?
  let r := Fin.ofNat order x.val
  let s := inverse nonce * (representative + r * scalar)
  if r = 0 ∨ s = 0 then none else some ⟨r, s⟩

/-- The signature from the first usable scalar of `count` in the chain. -/
def search (scalar representative : Scalar) : (count : Nat) → NonceChain → Option Signature
  | 0, _ => none
  | count + 1, chain =>
      let chain := chain.advance
      match (KeyPair.scalar? chain.value).bind (ofNonce? scalar representative) with
      | some signature => some signature
      | none => search scalar representative count (chain.rekey 0 [])

def encode (signature : Signature) : Bytes :=
  bigEndian coordinateLength signature.r.val ++ bigEndian coordinateLength signature.s.val

/-- The signature that exactly 96 bytes spell. -/
def decode? (bytes : Bytes) : Option Signature := do
  if bytes.length ≠ 2 * coordinateLength then none
  let r ← KeyPair.scalar? (bytes.take coordinateLength)
  let s ← KeyPair.scalar? (bytes.drop coordinateLength)
  return ⟨r, s⟩

/-- Whether the owner of `point` signed a message with this representative. -/
def isValid (signature : Signature) (point : Point) (representative : Scalar) : Bool :=
  let w := inverse signature.s
  let sum := ((Fraction.ofPoint generator).multiply (representative * w).val).add
    ((Fraction.ofPoint point).multiply (signature.r * w).val)
  match sum.coordinates? with
  | some (x, _) => Fin.ofNat order x.val = signature.r
  | none => false

end Signature

namespace KeyPair

/-- The encoded signature of a message; `none` if no scalar of a very long chain was usable. -/
def sign (pair : KeyPair) (message : Bytes) : Option Bytes :=
  let representative := Signature.representative message
  (Signature.search pair.scalar representative maxDraws
    (NonceChain.start pair.scalar representative)).map Signature.encode

/-- Check a signature. The public key is looked at first. -/
def verify (publicKey message signature : Bytes) : Except CryptoFault Unit := do
  let point ← point publicKey
  match Signature.decode? signature with
  | none => .error .invalidSignature
  | some signature =>
      if signature.isValid point (Signature.representative message) then
        .ok ()
      else
        .error .invalidSignature

end KeyPair

end Courier
