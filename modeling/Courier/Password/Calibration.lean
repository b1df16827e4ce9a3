import Courier.Password.Vault

/-! # Choosing the cost of a password

The time of a derivation is taken to be a fixed part plus a part for each
iteration. Both are estimated from the medians of derivations of one and of two
iterations, in rounds that add to the samples until both estimates are
positive. The clock is a parameter: any source of durations.
-/

namespace Courier.Calibration

structure Config where
  /-- Time that a derivation should take. -/
  targetMillis : Nat := 500
  /-- Samples of each kind in a round. -/
  samples : Nat := 30
  /-- Rounds before giving up. -/
  maxRounds : Nat := 10
  /-- Iterations when the rounds give no estimate. -/
  fallback : Nat := 100000
  deriving Repr, DecidableEq

/-- Durations in nanoseconds: the latest ones first, then those of earlier rounds in order of
    size. -/
structure Samples where
  /-- Of derivations with one iteration. -/
  quick : List Nat := []
  /-- Of derivations with two iterations. -/
  slow : List Nat := []

/-- The middle one of sorted values, or the mean of the two middle ones rounded down; zero for no
    values. -/
def median (sorted : List Nat) : Nat :=
  let middle := sorted.length / 2
  if sorted.length % 2 = 0 then
    (sorted.getD (middle - 1) 0 + sorted.getD middle 0) / 2
  else
    sorted.getD middle 0

def Samples.sorted (s : Samples) : Samples :=
  ⟨s.quick.mergeSort, s.slow.mergeSort⟩

/-- A number of iterations within the accepted range. -/
def clamp (iterations : Int) : Nat :=
  (max 1 (min iterations Vault.maxIterations)).toNat

/-- The number of iterations that takes `targetMillis`, if the sorted samples tell. -/
def Samples.estimate? (s : Samples) (targetMillis : Nat) : Option Nat :=
  let quick : Int := median s.quick
  let perIteration : Int := median s.slow - quick
  let fixed : Int := quick - perIteration
  if 0 < perIteration ∧ 0 < fixed then
    some (clamp (((targetMillis * 1000000 : Nat) - fixed).tdiv perIteration))
  else
    none

variable {m : Type → Type} [Monad m]

/-- Add `count` pairs of samples, a quick one and a slow one in turn. -/
def Samples.extend (sampler : Nat → m Nat) : (count : Nat) → Samples → m Samples
  | 0, s => return s
  | count + 1, s => do
      let quick ← sampler 1
      let slow ← sampler 2
      Samples.extend sampler count ⟨quick :: s.quick, slow :: s.slow⟩

/-- Rounds of `samples` pairs until they give an estimate, else the fallback. -/
def rounds (sampler : Nat → m Nat) (samples targetMillis fallback : Nat) :
    (remaining : Nat) → Samples → m Nat
  | 0, _ => return clamp fallback
  | remaining + 1, s => do
      let s := (← s.extend sampler samples).sorted
      match s.estimate? targetMillis with
      | some iterations => return iterations
      | none => rounds sampler samples targetMillis fallback remaining s

/-- The number of iterations that takes about `targetMillis` by the clock `sampler`, where
    `sampler n` is the duration of one derivation with `n` iterations. -/
def chooseIterations (config : Config) (targetMillis : Nat) (sampler : Nat → m Nat) : m Nat :=
  rounds sampler (max config.samples 1) targetMillis config.fallback config.maxRounds {}

end Courier.Calibration
