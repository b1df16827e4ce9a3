import Courier.Hash.Keyed
import Courier.Secret.Basic

/-! # Derived secrets

Every secret but the root comes from another one by a keyed digest over a label
and a context. Labels end in a zero byte and contain no other, and contexts are
four bytes, so label and context can be read off the digested bytes: two
purposes never share them.

A root secret comes from a key agreement by a digest over four fields, each
preceded by its length.
-/

namespace Courier

/-- What a secret is derived for. -/
inductive Purpose where
  /-- Salt of the group identifiers that a contact pair shares. -/
  | groupSalt
  /-- First-period secret of a transport, from the root secret. -/
  | transportSecret (transport : UInt32)
  /-- Secret of a rotation period, from the secret of the period before. -/
  | periodSecret (period : Nat)
  /-- Key of the tags sent by a role. -/
  | tagKey (role : Role)
  /-- Key of the frames sent by a role on one stream. -/
  | frameKey (role : Role) (stream : Nat)
  /-- Confirmation code of a role. -/
  | confirmationCode (role : Role)
  /-- Invitation nonce of a role. -/
  | invitationNonce (role : Role)
  deriving DecidableEq, Repr

namespace Purpose

/-- The name hashed for a purpose, closed by a zero byte. -/
def label : Purpose → Bytes
  | groupSalt => utf8 "SALT" ++ [0]
  | transportSecret _ => utf8 "FIRST" ++ [0]
  | periodSecret _ => utf8 "ROTATE" ++ [0]
  | tagKey .alice => utf8 "A_TAG" ++ [0]
  | tagKey .bob => utf8 "B_TAG" ++ [0]
  | frameKey .alice _ => utf8 "A_FRAME" ++ [0]
  | frameKey .bob _ => utf8 "B_FRAME" ++ [0]
  | confirmationCode _ => utf8 "CODE" ++ [0]
  | invitationNonce _ => utf8 "NONCE" ++ [0]

/-- The number hashed after the name. -/
def context : Purpose → Nat
  | groupSalt => 0
  | transportSecret transport => transport.toNat
  | periodSecret period => period
  | tagKey _ => 0
  | frameKey _ stream => stream
  | confirmationCode role => role.index
  | invitationNonce role => role.index

end Purpose

namespace Secret

/-- The bytes digested for a label and a context: a counter, both of these, and the length of the
    result. -/
def derivationInput (label : Bytes) (context : Nat) : Bytes :=
  0 :: label ++ bigEndian 4 context ++ [UInt8.ofNat secretLength]

/-- The secret that `s` yields for a label and a context. -/
def deriveLabelled (s : Secret) (label : Bytes) (context : Nat) : Except CryptoFault Secret :=
  if s.isBlank then
    .error .blankSecret
  else if label.getLast? ≠ some 0 then
    .error .malformedLabel
  else if maxContext < context then
    .error (.contextOutOfRange context)
  else
    .ok (truncate (keyedDigest s.bytes (derivationInput label context))
      (by simp [secretLength, Digest.length]))

/-- The secret that `s` yields for a purpose. A number out of range is reported before a blank
    secret. -/
def derive (s : Secret) (purpose : Purpose) : Except CryptoFault Secret :=
  if maxContext < purpose.context then
    .error (.contextOutOfRange purpose.context)
  else
    s.deriveLabelled purpose.label purpose.context

/-- Bits in an invitation or confirmation code. -/
def codeBits : Nat := 19

/-- The number spelled by the first `count` bits of `bytes`. -/
def leadingBits (count : Nat) (bytes : Bytes) : Nat :=
  ofBigEndian bytes >>> (8 * bytes.length - count)

def confirmationCode (s : Secret) (role : Role) : Except CryptoFault Nat :=
  (s.derive (.confirmationCode role)).map fun code => leadingBits codeBits code.bytes

/-- The secrets that `s` yields for a purpose of each role. -/
def deriveBoth (s : Secret) (purpose : Role → Purpose) : Except CryptoFault (List Secret) := do
  return [← s.derive (purpose .alice), ← s.derive (purpose .bob)]

end Secret

/-- The keys of both sides in one period. -/
structure PeriodKeys where
  secret : Secret
  tags : List Secret
  /-- For each stream. -/
  frames : List (List Secret)
  deriving DecidableEq

namespace PeriodKeys

/-- The keys of a period with the given streams. -/
def ofSecret (streams : List Nat) (secret : Secret) : Except CryptoFault PeriodKeys := do
  let tags ← secret.deriveBoth .tagKey
  let frames ← streams.mapM fun stream => secret.deriveBoth (.frameKey · stream)
  return { secret, tags, frames }

/-- The keys of one period after the other. A period whose secret cannot be derived is left out of
    the chain. -/
def chain (streams : List Nat) (secret : Secret) : (periods : List Nat) →
    List (Except CryptoFault PeriodKeys)
  | [] => []
  | period :: periods =>
      match secret.derive (.periodSecret period) with
      | .ok next => ofSecret streams next :: chain streams next periods
      | .error fault => .error fault :: chain streams secret periods

/-- The keys of a transport: those of the first period, then those of later ones. -/
def ofRoot (root : Secret) (transport : UInt32) (streams periods : List Nat) :
    List (Except CryptoFault PeriodKeys) :=
  match root.derive (.transportSecret transport) with
  | .ok first => ofSecret streams first :: chain streams first periods
  | .error fault => [.error fault]

end PeriodKeys

/-- The four fields that a root secret is made of. -/
structure AgreementFields where
  rawSecret : Bytes
  label : Bytes
  initiator : Bytes
  responder : Bytes
  deriving DecidableEq

namespace AgreementFields

/-- A field preceded by its length, which must fit in one byte. -/
def prefixed (field : String) (bytes : Bytes) : Except CryptoFault Bytes :=
  if bytes.length ≤ 255 then
    .ok (UInt8.ofNat bytes.length :: bytes)
  else
    .error (.fieldTooLong field bytes.length)

/-- The bytes digested for the fields. The first field that is too long is reported. -/
def input (fields : AgreementFields) : Except CryptoFault Bytes := do
  let rawSecret ← prefixed "raw_secret" fields.rawSecret
  let label ← prefixed "label" fields.label
  let initiator ← prefixed "initiator_info" fields.initiator
  let responder ← prefixed "responder_info" fields.responder
  return rawSecret ++ label ++ initiator ++ responder

/-- The root secret made of the fields. -/
def secret (fields : AgreementFields) : Except CryptoFault Secret :=
  fields.input.map fun input =>
    .truncate (doubleDigest input) (by simp [secretLength, Digest.length])

end AgreementFields

end Courier
