import Courier.Curve.Point
import Courier.Secret.Derivation

/-! # Key pairs and key agreement

A key pair is a scalar and the encoded multiple of the generator. Two sides
that multiply each other's points by their own scalars reach one point, whose
`x` is the raw secret. The root secret binds it to both public keys, that of
the initiator first.
-/

namespace Courier

open Curve

/-- A private scalar, not zero, and the public key that belongs to it. -/
structure KeyPair where
  scalar : Scalar
  publicKey : Bytes

namespace KeyPair

/-- The key pair of a scalar; the neutral point, which no scalar but zero has, is spelled `0`. -/
def ofScalar (scalar : Scalar) : KeyPair where
  scalar := scalar
  publicKey :=
    match ((Fraction.ofPoint generator).multiply scalar.val).coordinates? with
    | some (x, y) => encodeCoordinates x y
    | none => [0]

/-- The scalar spelled by 48 bytes, if it is neither zero nor too large. -/
def scalar? (bytes : Bytes) : Option Scalar :=
  let n := ofBigEndian bytes
  if h : 0 < n ∧ n < order then some ⟨n, h.2⟩ else none

/-- Draws after which random bytes are given up. No working source comes near. -/
def maxDraws : Nat := UInt64.size

/-- The first usable scalar among `draws` drawn from `random`. -/
def drawScalar {m : Type → Type} [Monad m] (random : Nat → m Bytes) :
    (draws : Nat) → m (Option Scalar)
  | 0 => return none
  | draws + 1 => do
      match scalar? (← random coordinateLength) with
      | some scalar => return some scalar
      | none => drawScalar random draws

/-- A fresh key pair; `none` if the random bytes were given up. -/
def generate {m : Type → Type} [Monad m] (random : Nat → m Bytes) : m (Option KeyPair) := do
  return (← drawScalar random maxDraws).map ofScalar

/-- The text shown in place of a key pair for agreements. -/
def shownAgreement : String :=
  s!"AgreementKeyPair \x7b public: {publicKeyLength}, secret: \"[REDACTED]\" \x7d"

/-- The text shown in place of a key pair for signatures. -/
def shownSignature : String :=
  s!"SignatureKeyPair \x7b public: {publicKeyLength}, signing: \"[REDACTED]\" \x7d"

/-- The raw secret shared with the owner of a point. -/
def rawSecret (ours : KeyPair) (theirs : Point) : Bytes :=
  match ((Fraction.ofPoint theirs).multiply ours.scalar.val).coordinates? with
  | some (x, _) => coordinateBytes x
  | none => coordinateBytes 0

def point (publicKey : Bytes) : Except CryptoFault Point :=
  match Point.decode? publicKey with
  | some point => .ok point
  | none => .error .invalidPublicKey

/-- The fields of the root secret shared with the owner of `theirs`. Their public key counts as
    given, so two encodings of one point lead to different secrets. -/
def agreementFields (ours : KeyPair) (theirs : Bytes) (initiator : Bool) (rawSecret : Bytes) :
    AgreementFields :=
  let our := doubleDigest ours.publicKey
  let their := doubleDigest theirs
  { rawSecret
    label := utf8 "MASTER" ++ [0]
    initiator := if initiator then our else their
    responder := if initiator then their else our }

def rootSecret (ours : KeyPair) (theirs : Bytes) (initiator : Bool) :
    Except CryptoFault Secret := do
  let point ← point theirs
  (ours.agreementFields theirs initiator (ours.rawSecret point)).secret

end KeyPair

end Courier
