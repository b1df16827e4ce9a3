import Courier.Hash.Keyed
import Courier.Secret.Basic

/-! # Texts sealed under a password

A sealed text carries all that opening needs but the password: the salt, the
number of iterations of the password stretching, the nonce, and the ciphertext
with its code. So a text sealed with one number of iterations opens wherever
the format is known.
-/

namespace Courier.Vault

def saltLength : Nat := 16

/-- Largest number of iterations, so that it fits a signed 32-bit number. -/
def maxIterations : Nat := 2147483647

/-- What precedes the ciphertext. -/
structure Header where
  salt : Block
  iterations : Nat
  nonce : Block
  deriving DecidableEq

namespace Header

def length : Nat := 36

def toBytes (h : Header) : Bytes :=
  h.salt.toBytes ++ bigEndian 4 h.iterations ++ h.nonce.toBytes

/-- The header spelled by the first 36 bytes. -/
def ofBytes (bytes : Bytes) : Header where
  salt := .ofBytes (bytes.take 16)
  iterations := ofBigEndian ((bytes.drop 16).take 4)
  nonce := .ofBytes ((bytes.drop 20).take 16)

/-- Whether the number of iterations is one that sealing accepts. -/
def isUsable (h : Header) : Bool :=
  0 < h.iterations ∧ h.iterations ≤ maxIterations

/-- The key that a password yields under the salt. -/
def key (h : Header) (password : String) : Secret :=
  .truncate (stretched (utf8 password) h.salt.toBytes h.iterations)
    (by simp [secretLength, Digest.length])

end Header

/-- The plaintext sealed under a password. -/
def lock (header : Header) (password : String) (plaintext : Bytes) : Except CryptoFault Bytes :=
  if header.isUsable then
    ((header.key password).encrypt header.nonce.toBytes [] plaintext).map (header.toBytes ++ ·)
  else
    .error (.invalidIterationCount header.iterations)

/-- The plaintext of a sealed text; `none` for a wrong password and for everything that sealing
    does not produce. -/
def unlock? (blob : Bytes) (password : String) : Option Bytes :=
  let header := Header.ofBytes blob
  if Header.length + CounterMode.codeLength ≤ blob.length ∧ header.isUsable then
    ((header.key password).decrypt header.nonce.toBytes [] (blob.drop Header.length)).toOption
  else
    none

end Courier.Vault
