import Courier.Curve.KeyPair
import Courier.Password.Calibration
import Courier.Random.KeyStream

/-! # Minting secrets

Whatever has to be random is made here: secrets, key pairs, invitation codes,
and the salt and nonce of a text sealed under a password. Every random byte is
a byte of the platform mixed with one of a seeded stream, so it is no weaker
than the better of the two.
-/

namespace Courier

/-- A source of random bytes: the platform, or a list of bytes. -/
class Entropy (m : Type → Type) where
  draw : (count : Nat) → m Bytes

/-- A clock for the stretching of passwords. -/
class Stopwatch (m : Type → Type) where
  /-- Nanoseconds that one stretching with so many iterations takes. -/
  timeStretching : (iterations : Nat) → m Nat

/-- A computation that draws mixed random bytes. -/
abbrev Mint (m : Type → Type) := StateT KeyStream m

namespace Mint

variable {m : Type → Type} [Monad m] [Entropy m]

/-- Run a computation with a stream seeded by the platform. -/
def run {α : Type} (mint : Mint m α) : m α := do
  let seed ← Entropy.draw secretLength
  return (← StateT.run mint (.ofSeed seed)).1

def draw (count : Nat) : Mint m Bytes := do
  let fresh ← (Entropy.draw count : m Bytes)
  let mix ← modifyGet (KeyStream.take count)
  return xorBytes fresh mix

def secret : Mint m Secret := do
  let bytes ← draw secretLength
  return .truncate (bytes ++ List.replicate secretLength 0) (by simp)

def keyPair : Mint m (Option KeyPair) :=
  KeyPair.generate draw

def invitationCode : Mint m Nat := do
  return ofBigEndian (← draw 4) % (1 <<< Secret.codeBits)

variable [Stopwatch m]

def chooseIterations (config : Calibration.Config) (targetMillis : Nat) : m Nat :=
  Calibration.chooseIterations config targetMillis Stopwatch.timeStretching

/-- Seal a plaintext under a password, at the cost that the configuration asks for. -/
def lock (config : Calibration.Config) (password : String) (plaintext : Bytes) :
    Mint m (Except CryptoFault Bytes) := do
  let iterations ← (chooseIterations config config.targetMillis : m Nat)
  let salt ← draw Vault.saltLength
  let nonce ← draw Vault.saltLength
  return Vault.lock { salt := .ofBytes salt, iterations, nonce := .ofBytes nonce } password
    plaintext

omit [Stopwatch m] in
/-- The text shown in place of a mint. -/
def shown (config : Calibration.Config) : String :=
  "CryptoEngine \x7b random: SecureRandom \x7b .. \x7d, config: CryptoConfig \x7b " ++
    s!"pbkdf_target_millis: {config.targetMillis}, pbkdf_samples: {config.samples}, " ++
    s!"pbkdf_max_rounds: {config.maxRounds}, " ++
    s!"pbkdf_fallback_iterations: {config.fallback} \x7d \x7d"

end Mint

end Courier
