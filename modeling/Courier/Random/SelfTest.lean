import Courier.Curve.Signature
import Courier.Random.Mint

/-! # Self tests of a mint

One run of everything that a mint makes, with what came of it: a working mint
makes nothing twice, and what it makes can be used. Key pairs agree with each
other, a signature is valid, and a sealed text opens under its own password
only.
-/

namespace Courier

structure SelfTest where
  iterations : Nat
  /-- A text sealed under a password. -/
  sealed : Bytes
  opened : Option Bytes
  /-- What opens under another password. -/
  openedByOther : Option Bytes
  /-- Salt and nonce of a second sealing are new. -/
  isFresh : Bool
  /-- Two mints with one stream draw different bytes; few bytes may be equal by chance. -/
  drawsDiffer : Bool
  secret : Secret
  /-- A second secret is new. -/
  secretsDiffer : Bool
  invitationCode : Nat
  publicKey : Bytes
  signature : Bytes
  signatureHolds : Bool
  /-- Both sides of an agreement reach the same secret. -/
  agrees : Bool
  /-- Iterations that the clock of the platform leads to. -/
  calibrated : Nat

namespace Mint

variable {m : Type → Type} [Monad m] [Entropy m] [Stopwatch m]

/-- Below this number of bytes two draws may well be equal. -/
def tellingCount : Nat := 16

/-- Seal a text twice, draw `count` bytes twice, and use fresh keys; nothing without key pairs. -/
def selfTest (config : Calibration.Config) (password : String) (plaintext : Bytes) (count : Nat) :
    Mint m (Option SelfTest) := do
  let first := (← lock config password plaintext).toOption.getD []
  let second := (← lock config password plaintext).toOption.getD []
  let iterations ← (chooseIterations config config.targetMillis : m Nat)
  let calibrated ← (chooseIterations {} config.targetMillis : m Nat)
  let (secret, otherSecret) := (← secret, ← secret)
  let invitationCode ← invitationCode
  let stream ← get
  let bytes ← draw count
  set stream
  let otherBytes ← draw count
  match ← keyPair, ← keyPair with
  | some ours, some theirs =>
      let message := utf8 "self test"
      let signature := (ours.sign message).getD []
      let root := (ours.rootSecret theirs.publicKey true).toOption
      return some {
        iterations
        sealed := first
        opened := Vault.unlock? first password
        openedByOther := Vault.unlock? first (password ++ "!")
        isFresh :=
          first.take 16 ≠ second.take 16 ∧ (first.drop 20).take 16 ≠ (second.drop 20).take 16
        drawsDiffer := count < tellingCount ∨ bytes ≠ otherBytes
        secret
        secretsDiffer := secret ≠ otherSecret
        invitationCode
        publicKey := ours.publicKey
        signature
        signatureHolds := (KeyPair.verify ours.publicKey message signature).toOption.isSome
        agrees := root.isSome ∧ root = (theirs.rootSecret ours.publicKey false).toOption
        calibrated }
  | _, _ => return none

end Mint

end Courier
