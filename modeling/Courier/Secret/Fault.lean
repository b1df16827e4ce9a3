/-! # Faults of the cryptographic layer

What can be wrong with the arguments of a derivation or a cipher, and the text
that reports it. All but `authenticationFailed` would fail again on the same
arguments.
-/

namespace Courier

inductive CryptoFault where
  /-- The all-zero secret never keys anything. -/
  | blankSecret
  | invalidKeyLength (expected actual : Nat)
  /-- A context, stream number or period that does not fit in 32 bits. -/
  | contextOutOfRange (value : Nat)
  /-- A derivation label that is not closed by a zero byte. -/
  | malformedLabel
  /-- A field too long for its one-byte length. -/
  | fieldTooLong (field : String) (length : Nat)
  | bufferTooShort (expected actual : Nat)
  | invalidPublicKey
  | invalidSignature
  | invalidIterationCount (count : Nat)
  /-- A sealed text does not carry the right code. -/
  | authenticationFailed
  /-- A text too long for the cipher. -/
  | encryptionFailed
  deriving DecidableEq, Repr

namespace CryptoFault

def message : CryptoFault → String
  | blankSecret => "secret is blank"
  | invalidKeyLength expected actual =>
      s!"invalid key length: expected {expected} bytes, got {actual}"
  | contextOutOfRange value => s!"context value {value} exceeds the unsigned 32-bit range"
  | malformedLabel => "KDF label must be NUL-terminated"
  | fieldTooLong field length => s!"KDF field {field} is {length} bytes (max 255)"
  | bufferTooShort expected actual => s!"buffer too short: need {expected} bytes, got {actual}"
  | invalidPublicKey => "invalid public key encoding"
  | invalidSignature => "invalid signature"
  | invalidIterationCount count => s!"iteration count {count} out of range"
  | authenticationFailed => "authentication failed"
  | encryptionFailed => "encryption failed"

end CryptoFault

end Courier
