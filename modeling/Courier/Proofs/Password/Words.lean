import Courier.Password.Calibration
import Mathlib.Data.List.GetD

/-! # Estimates in machine words

Estimates and calibrations once more, now step by step in signed words of 128
bits: a step that leaves their range, divides by zero or reads a sample that is
not there gives nothing. No step does for durations that a clock can show and
targets of 64 bits, so a calibration in words is the one in unbounded numbers.
-/

namespace Courier.Calibration

/-- 2^127, the first number that a signed word of 128 bits cannot hold. -/
def wordLimit : Int := 170141183460469231731687303715884105728

/-- A number that fits in a word. -/
def word? (n : Int) : Option Int :=
  if -wordLimit ≤ n ∧ n < wordLimit then some n else none

/-- The quotient of two words, rounded towards zero. -/
def quotient? (n divisor : Int) : Option Int :=
  if divisor = 0 then none else word? (n.tdiv divisor)

/-- The word at a place of the samples. -/
def wordAt? (sorted : List Nat) (place : Nat) : Option Int := do
  word? (← sorted[place]?)

def wordMedian? (sorted : List Nat) : Option Int :=
  let middle := sorted.length / 2
  if sorted = [] then
    some 0
  else if sorted.length % 2 = 0 then do
    quotient? (← word? ((← wordAt? sorted (middle - 1)) + (← wordAt? sorted middle))) 2
  else
    wordAt? sorted middle

/-- The estimate of sorted samples; the outer `none` is for a step that cannot be done in words. -/
def Samples.wordEstimate? (s : Samples) (targetMillis : Nat) : Option (Option Nat) := do
  let quick ← wordMedian? s.quick
  let slow ← wordMedian? s.slow
  let perIteration ← word? (slow - quick)
  let fixed ← word? (quick - perIteration)
  if 0 < perIteration ∧ 0 < fixed then
    let target ← word? ((← word? targetMillis) * 1000000)
    let iterations ← quotient? (← word? (target - fixed)) perIteration
    return some (clamp iterations)
  else
    return none

section

variable {m : Type → Type} [Monad m]

/-- The rounds of a calibration, which give nothing if an estimate cannot be done in words. -/
def wordRounds (sampler : Nat → m Nat) (samples targetMillis fallback : Nat) :
    (remaining : Nat) → Samples → m (Option Nat)
  | 0, _ => return some (clamp fallback)
  | remaining + 1, s => do
      let s := (← s.extend sampler samples).sorted
      match s.wordEstimate? targetMillis with
      | none => return none
      | some (some iterations) => return some iterations
      | some none => wordRounds sampler samples targetMillis fallback remaining s

def chooseWordIterations (config : Config) (targetMillis : Nat) (sampler : Nat → m Nat) :
    m (Option Nat) :=
  wordRounds sampler (max config.samples 1) targetMillis config.fallback config.maxRounds {}

end

/-- Longest duration: one nanosecond less than 2^64 seconds. -/
def maxDuration : Nat := 18446744073709551615999999999

/-- 10^30, a number that no step of an estimate exceeds. -/
def mostNanos : Int := 1000000000000000000000000000000

section

variable {n divisor : Int}

theorem word?_of_le (low : -mostNanos ≤ n) (high : n ≤ mostNanos) : word? n = some n := by
  simp only [mostNanos] at low high
  exact if_pos ⟨by simp only [wordLimit]; omega, by simp only [wordLimit]; omega⟩

theorem quotient?_of_le (low : -mostNanos ≤ n) (high : n ≤ mostNanos) (positive : 0 < divisor) :
    quotient? n divisor = some (n.tdiv divisor) := by
  have size := Int.natAbs_tdiv_le_natAbs n divisor
  rw [quotient?, if_neg (Int.ne_of_gt positive)]
  exact word?_of_le (by omega) (by omega)

theorem natCast_le_mostNanos {n : Nat} (small : n ≤ 2 * maxDuration) :
    -mostNanos ≤ n ∧ n ≤ mostNanos := by
  simp only [maxDuration] at small
  simp only [mostNanos]
  omega

end

/-! ## Estimates -/

section

variable {sorted : List Nat} {place : Nat}

theorem getD_le (timed : ∀ d ∈ sorted, d ≤ maxDuration) (place : Nat) :
    sorted.getD place 0 ≤ maxDuration := by
  rcases Nat.lt_or_ge place sorted.length with within | beyond
  · rw [List.getD_eq_getElem _ _ within]
    exact timed _ (List.getElem_mem within)
  · rw [List.getD_eq_default _ _ beyond]
    exact Nat.zero_le _

theorem median_le (timed : ∀ d ∈ sorted, d ≤ maxDuration) : median sorted ≤ maxDuration := by
  have below := getD_le timed (sorted.length / 2 - 1)
  have above := getD_le timed (sorted.length / 2)
  simp only [median]
  split <;> omega

theorem wordAt?_of_timed (timed : ∀ d ∈ sorted, d ≤ maxDuration) (within : place < sorted.length) :
    wordAt? sorted place = some (sorted.getD place 0 : Int) := by
  obtain ⟨low, high⟩ := natCast_le_mostNanos (Nat.le_trans (getD_le timed place) (by decide))
  rw [List.getD_eq_getElem _ _ within] at low high ⊢
  rw [wordAt?, List.getElem?_eq_getElem within, Option.bind_eq_bind, Option.bind_some]
  exact word?_of_le low high

theorem wordMedian?_of_timed (timed : ∀ d ∈ sorted, d ≤ maxDuration) :
    wordMedian? sorted = some (median sorted : Int) := by
  have below := getD_le timed (sorted.length / 2 - 1)
  have above := getD_le timed (sorted.length / 2)
  rw [wordMedian?]
  split
  next empty => simp [empty, median]
  next nonempty =>
    have positive := List.length_pos_iff.mpr nonempty
    have within : sorted.length / 2 < sorted.length := by omega
    simp only [median]
    split
    next even =>
      have before := Nat.lt_of_le_of_lt (Nat.sub_le (sorted.length / 2) 1) within
      obtain ⟨low, high⟩ := natCast_le_mostNanos (n := sorted.getD (sorted.length / 2 - 1) 0 +
        sorted.getD (sorted.length / 2) 0) (by omega)
      refine Option.bind_eq_some_iff.mpr ⟨_, wordAt?_of_timed timed before, ?_⟩
      refine Option.bind_eq_some_iff.mpr ⟨_, wordAt?_of_timed timed within, ?_⟩
      refine Option.bind_eq_some_iff.mpr ⟨_, word?_of_le low high, ?_⟩
      exact quotient?_of_le low high (by decide)
    next odd => exact wordAt?_of_timed timed within

/-- All samples are durations that a clock can show. -/
structure Samples.Timed (s : Samples) : Prop where
  quick : ∀ d ∈ s.quick, d ≤ maxDuration
  slow : ∀ d ∈ s.slow, d ≤ maxDuration

theorem Samples.Timed.wordEstimate? {s : Samples} (timed : s.Timed) {targetMillis : Nat}
    (target : targetMillis < UInt64.size) :
    s.wordEstimate? targetMillis = some (s.estimate? targetMillis) := by
  have quickMedian := median_le timed.quick
  have slowMedian := median_le timed.slow
  have most : mostNanos = 1000000000000000000000000000000 := rfl
  simp only [maxDuration] at quickMedian slowMedian
  simp only [UInt64.size] at target
  refine Option.bind_eq_some_iff.mpr ⟨_, wordMedian?_of_timed timed.quick, ?_⟩
  refine Option.bind_eq_some_iff.mpr ⟨_, wordMedian?_of_timed timed.slow, ?_⟩
  refine Option.bind_eq_some_iff.mpr ⟨_, word?_of_le (by omega) (by omega), ?_⟩
  refine Option.bind_eq_some_iff.mpr ⟨_, word?_of_le (by omega) (by omega), ?_⟩
  simp only [estimate?]
  split
  next tells =>
    refine Option.bind_eq_some_iff.mpr ⟨_, word?_of_le (by omega) (by omega), ?_⟩
    refine Option.bind_eq_some_iff.mpr ⟨_, word?_of_le (by omega) (by omega), ?_⟩
    refine Option.bind_eq_some_iff.mpr ⟨_, word?_of_le (by omega) (by omega), ?_⟩
    have quotient := quotient?_of_le (n := (targetMillis * 1000000 : Nat) -
      (median s.quick - (median s.slow - median s.quick : Int))) (by omega) (by omega) tells.1
    exact Option.bind_eq_some_iff.mpr ⟨_, quotient, rfl⟩
  next => rfl

end

/-! ## Calibrations -/

section

variable {σ : Type} {sampler : Nat → StateM σ Nat} {s : Samples} {targetMillis : Nat}

theorem Samples.Timed.sorted (timed : s.Timed) : s.sorted.Timed :=
  ⟨fun d member => timed.quick d (List.mem_mergeSort.mp member),
    fun d member => timed.slow d (List.mem_mergeSort.mp member)⟩

theorem Samples.Timed.extend (timed : s.Timed)
    (clocked : ∀ n state, ((sampler n).run state).1 ≤ maxDuration) (count : Nat) (state : σ) :
    ((s.extend sampler count).run state).1.Timed := by
  induction count generalizing s state with
  | zero => exact timed
  | succ count ih =>
      exact ih (s := ⟨_ :: s.quick, _ :: s.slow⟩)
        ⟨List.forall_mem_cons.mpr ⟨clocked 1 state, timed.quick⟩,
          List.forall_mem_cons.mpr ⟨clocked 2 _, timed.slow⟩⟩ _

theorem run_rounds_succ {s' : Samples} {state state' : σ} {samples : Nat}
    (ran : (s.extend sampler samples).run state = (s', state')) (fallback remaining : Nat) :
    (rounds sampler samples targetMillis fallback (remaining + 1) s).run state =
      match s'.sorted.estimate? targetMillis with
      | some iterations => (iterations, state')
      | none => (rounds sampler samples targetMillis fallback remaining s'.sorted).run state' := by
  rw [rounds, StateT.run_bind, ran]
  change (match s'.sorted.estimate? targetMillis with
    | some iterations => pure iterations
    | none => rounds sampler samples targetMillis fallback remaining s'.sorted : StateM σ Nat).run
      state' = _
  cases s'.sorted.estimate? targetMillis <;> rfl

theorem Samples.Timed.run_wordRounds (timed : s.Timed)
    (clocked : ∀ n state, ((sampler n).run state).1 ≤ maxDuration)
    (target : targetMillis < UInt64.size) (samples fallback remaining : Nat) (state : σ) :
    (wordRounds sampler samples targetMillis fallback remaining s).run state =
      Prod.map some id ((rounds sampler samples targetMillis fallback remaining s).run state) := by
  induction remaining generalizing s state with
  | zero => rfl
  | succ remaining ih =>
      have timed' := (timed.extend clocked samples state).sorted
      cases ran : (s.extend sampler samples).run state with
      | mk s' state' =>
        rw [ran] at timed'
        rw [run_rounds_succ ran, wordRounds, StateT.run_bind, ran]
        change (match s'.sorted.wordEstimate? targetMillis with
          | none => pure none
          | some (some iterations) => pure (some iterations)
          | some none => wordRounds sampler samples targetMillis fallback remaining s'.sorted :
            StateM σ (Option Nat)).run state' = _
        rw [timed'.wordEstimate? target]
        cases s'.sorted.estimate? targetMillis with
        | none => exact ih timed' state'
        | some iterations => rfl

/-- A calibration never leaves the words: with durations and targets that there are, it does in them
    what it does in unbounded numbers. -/
theorem run_chooseWordIterations (clocked : ∀ n state, ((sampler n).run state).1 ≤ maxDuration)
    (target : targetMillis < UInt64.size) (config : Config) (clock : σ) :
    (chooseWordIterations config targetMillis sampler).run clock =
      Prod.map some id ((chooseIterations config targetMillis sampler).run clock) :=
  Samples.Timed.run_wordRounds ⟨by simp, by simp⟩ clocked target ..

end

end Courier.Calibration
