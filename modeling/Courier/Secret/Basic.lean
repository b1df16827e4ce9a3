import Courier.Secret.Fault
import Courier.Symmetric.BlockCipher
import Courier.Symmetric.CounterMode

/-! # Secrets

A secret is 32 bytes: a root secret, the secret of a rotation period, a tag key
or a frame key. The blank secret is what erasing leaves; a derivation refuses
it, the ciphers below do not look.
-/

namespace Courier

/-- Largest value accepted as a derivation context, stream number or period. -/
def maxContext : Nat := 4294967295

/-- One side of a contact pair. The side that started the key agreement is Alice. -/
inductive Role where
  | alice
  | bob
  deriving DecidableEq, Repr

def Role.peer : Role → Role
  | alice => bob
  | bob => alice

@[simp] theorem Role.peer_peer (role : Role) : role.peer.peer = role := by
  cases role <;> rfl

/-- The number that stands for a side in a derivation. -/
def Role.index : Role → Nat
  | alice => 0
  | bob => 1

def secretLength : Nat := 32

structure Secret where
  bytes : Bytes
  length_eq : bytes.length = secretLength
  deriving DecidableEq

namespace Secret

/-- The secret with these bytes; any length but 32 is refused. -/
def ofBytes (bytes : Bytes) : Except CryptoFault Secret :=
  if h : bytes.length = secretLength then
    .ok ⟨bytes, h⟩
  else
    .error (.invalidKeyLength secretLength bytes.length)

/-- The first 32 of `bytes`. -/
def truncate (bytes : Bytes) (h : secretLength ≤ bytes.length) : Secret :=
  ⟨bytes.take secretLength, by simp [h]⟩

def blank : Secret :=
  ⟨List.replicate secretLength 0, by simp⟩

def isBlank (s : Secret) : Bool :=
  s.bytes.all (· == 0)

/-- What is left of an erased secret. -/
def erased (_ : Secret) : Secret :=
  blank

def shown : String :=
  "SecretKey \x7b bytes: \"[REDACTED]\" \x7d"

def shownCipher : String :=
  "AuthenticatedCipher \x7b key: \"[REDACTED]\" \x7d"

/-- The block cipher under the secret. -/
def schedule (s : Secret) : BlockCipher.Schedule :=
  BlockCipher.schedule (.ofBytes (s.bytes.take 16)) (.ofBytes (s.bytes.drop 16))

def encipher (s : Secret) (x : Block) : Block :=
  s.schedule.encrypt x

def decipher (s : Secret) (x : Block) : Block :=
  s.schedule.decrypt x

/-- Longest plaintext, and longest associated data, that the cipher takes. -/
def maxPlaintext : Nat := 68719476736

/-- Longest ciphertext, its code left out, that the cipher tries to open. -/
def maxCiphertext : Nat := 68719476752

/-- Ciphertext and code of a text of any length. -/
def sealed (s : Secret) (nonce aad plaintext : Bytes) : Bytes :=
  let keys := s.schedule
  CounterMode.sealed keys.encrypt nonce aad plaintext

/-- The text behind ciphertext and code, if the code is right. -/
def opened? (s : Secret) (nonce aad text : Bytes) : Option Bytes :=
  let keys := s.schedule
  CounterMode.opened? keys.encrypt nonce aad text

/-- Ciphertext and code of a plaintext within the limits of the cipher. -/
def encrypt (s : Secret) (nonce aad plaintext : Bytes) : Except CryptoFault Bytes :=
  if plaintext.length ≤ maxPlaintext ∧ aad.length ≤ maxPlaintext then
    .ok (s.sealed nonce aad plaintext)
  else
    .error .encryptionFailed

/-- The text behind ciphertext and code. Less than a code is an argument fault, everything else
    that does not open has a wrong code. -/
def decrypt (s : Secret) (nonce aad text : Bytes) : Except CryptoFault Bytes :=
  if text.length < CounterMode.codeLength then
    .error (.bufferTooShort CounterMode.codeLength text.length)
  else if text.length - CounterMode.codeLength ≤ maxCiphertext ∧ aad.length ≤ maxPlaintext then
    match s.opened? nonce aad text with
    | some plaintext => .ok plaintext
    | none => .error .authenticationFailed
  else
    .error .authenticationFailed

end Secret

end Courier
