import Courier.Proofs.Password.Median
import Courier.Proofs.Password.Words
import Courier.Proofs.Vault
import Mathlib.Data.Multiset.Range
import Mathlib.Data.Nat.Find
import Mathlib.Tactic.Choose

/-! # What a calibration answers

A clock is a state that changes with every derivation that it times. The pairs
of durations that it shows do not depend on what is done with them, so they can
be numbered, and a calibration is a walk through them in rounds: it stops at
the first round after which the medians of all samples so far tell the cost, and
its answer is a quotient of these medians.

The samples of a round are added to those before, which were sorted in place,
so what the walk keeps is a list with the right elements in some order. Medians
do not depend on the order.
-/

namespace Courier.Calibration

/-! ## The samples of a clock -/

section

variable {σ : Type} (sampler : Nat → StateM σ Nat) (clock : σ)

/-- The clock after so many pairs of derivations, one with one iteration and one with two. -/
def clockAfter : (pairs : Nat) → σ
  | 0 => clock
  | pairs + 1 => ((sampler 2).run ((sampler 1).run (clockAfter pairs)).2).2

/-- The duration with one iteration in a pair, counted from zero. -/
def quickAt (pair : Nat) : Nat :=
  ((sampler 1).run (clockAfter sampler clock pair)).1

/-- The duration with two iterations in a pair. -/
def slowAt (pair : Nat) : Nat :=
  ((sampler 2).run ((sampler 1).run (clockAfter sampler clock pair)).2).1

/-- The number of iterations that a calibration chooses, and the clock afterwards. -/
def chosen (config : Config) (targetMillis : Nat) : Nat × σ :=
  (chooseIterations config targetMillis sampler).run clock

end

/-- All values of the first `rounds` rounds of `size` each. -/
def firstRounds (values : Nat → Nat) (size rounds : Nat) : Multiset Nat :=
  (Multiset.range (rounds * size)).map values

/-- The values of one round, counted from zero. -/
def roundOf (values : Nat → Nat) (size round : Nat) : Multiset Nat :=
  (Multiset.range size).map fun i => values (round * size + i)

theorem firstRounds_succ (values : Nat → Nat) (size rounds : Nat) :
    firstRounds values size (rounds + 1) =
      firstRounds values size rounds + roundOf values size rounds := by
  rw [firstRounds, Nat.succ_mul, Multiset.range_add, Multiset.map_add, Multiset.map_map]
  rfl

theorem card_firstRounds (values : Nat → Nat) (size rounds : Nat) :
    (firstRounds values size rounds).card = rounds * size := by
  simp [firstRounds]

theorem card_firstRounds_pos (values : Nat → Nat) {size rounds : Nat} (positive : 0 < size)
    (later : 0 < rounds) : 0 < (firstRounds values size rounds).card := by
  rw [card_firstRounds]
  exact Nat.mul_pos later positive

theorem firstRounds_congr {values values' : Nat → Nat} {size last : Nat}
    (same : ∀ round < last, roundOf values size round = roundOf values' size round) {rounds : Nat}
    (within : rounds ≤ last) :
    firstRounds values size rounds = firstRounds values' size rounds := by
  induction rounds with
  | zero => simp [firstRounds]
  | succ rounds ih => rw [firstRounds_succ, firstRounds_succ, ih (by omega), same rounds within]

/-! ## One estimate -/

/-- Medians from which the cost can be told: an iteration takes time, and so does the rest. -/
def Telling (quick slow : Nat) : Prop :=
  quick < slow ∧ slow < 2 * quick

instance (quick slow : Nat) : Decidable (Telling quick slow) :=
  inferInstanceAs (Decidable (_ ∧ _))

/-- The number of iterations that the medians of derivations with one and two iterations tell. -/
def answer (targetMillis quick slow : Nat) : Nat :=
  clamp (((targetMillis * 1000000 : Nat) - (2 * quick - slow : Int)).tdiv (slow - quick))

theorem estimate?_eq (s : Samples) (targetMillis : Nat) :
    s.estimate? targetMillis =
      if Telling (median s.quick) (median s.slow) then
        some (answer targetMillis (median s.quick) (median s.slow))
      else none := by
  have fixed : (median s.quick - (median s.slow - median s.quick) : Int) =
      2 * median s.quick - median s.slow := by omega
  simp only [Samples.estimate?, answer, fixed, Telling]
  exact if_congr (by omega) rfl rfl

theorem clamp_bounds (n : Int) : 0 < clamp n ∧ clamp n ≤ Vault.maxIterations := by
  simp only [clamp, Vault.maxIterations]
  omega

theorem clamp_mono {m n : Int} (less : m ≤ n) : clamp m ≤ clamp n := by
  simp only [clamp]
  omega

theorem answer_mono {targetMillis targetMillis' quick slow : Nat} (telling : Telling quick slow)
    (less : targetMillis ≤ targetMillis') :
    answer targetMillis quick slow ≤ answer targetMillis' quick slow := by
  have positive : (0 : Int) < slow - quick := by
    have := telling.1
    omega
  exact clamp_mono (Int.tdiv_le_tdiv positive (by omega))

/-! ## The walk through the rounds -/

/-- `s` holds the samples of the first `rounds` rounds in some order. -/
structure Holds {σ : Type} (sampler : Nat → StateM σ Nat) (clock : σ) (size rounds : Nat)
    (s : Samples) : Prop where
  quick : (s.quick : Multiset Nat) = firstRounds (quickAt sampler clock) size rounds
  slow : (s.slow : Multiset Nat) = firstRounds (slowAt sampler clock) size rounds

/-- `quick` and `slow` are the medians of all samples after each round, the first being round
    one. -/
structure Medians {σ : Type} (sampler : Nat → StateM σ Nat) (clock : σ) (size last : Nat)
    (quick slow : Nat → Nat) : Prop where
  quick : ∀ r, 0 < r → r ≤ last → IsMedian (firstRounds (quickAt sampler clock) size r) (quick r)
  slow : ∀ r, 0 < r → r ≤ last → IsMedian (firstRounds (slowAt sampler clock) size r) (slow r)

section

variable {σ : Type} {sampler : Nat → StateM σ Nat} {clock : σ} {size last : Nat}
  {quick slow : Nat → Nat}

private theorem map_range_succ (values : Nat → Nat) (done count : Nat) :
    (Multiset.range (count + 1)).map (fun i => values (done + i)) =
      values done ::ₘ (Multiset.range count).map (fun i => values (done + 1 + i)) := by
  rw [Nat.add_comm count 1, Multiset.range_add, Multiset.map_add, Multiset.map_map]
  simp [Nat.add_assoc]

/-- More pairs add their durations, and leave the clock where these pairs end. -/
theorem run_extend (sampler : Nat → StateM σ Nat) (clock : σ) (count done : Nat) (s : Samples) :
    ∃ s' : Samples, (s.extend sampler count).run (clockAfter sampler clock done) =
        (s', clockAfter sampler clock (done + count)) ∧
      (s'.quick : Multiset Nat) =
        s.quick + (Multiset.range count).map (fun i => quickAt sampler clock (done + i)) ∧
      (s'.slow : Multiset Nat) =
        s.slow + (Multiset.range count).map (fun i => slowAt sampler clock (done + i)) := by
  induction count generalizing done s with
  | zero => exact ⟨s, rfl, by simp, by simp⟩
  | succ count ih =>
      obtain ⟨s', ran, quicks, slows⟩ := ih (done + 1)
        ⟨quickAt sampler clock done :: s.quick, slowAt sampler clock done :: s.slow⟩
      refine ⟨s', ?_, ?_, ?_⟩
      · rw [show done + (count + 1) = done + 1 + count by omega]
        exact ran
      · rw [quicks, map_range_succ, ← Multiset.cons_coe, Multiset.cons_add, Multiset.add_cons]
      · rw [slows, map_range_succ, ← Multiset.cons_coe, Multiset.cons_add, Multiset.add_cons]

/-- One more round, sorted in place. -/
theorem Holds.run_extend {s : Samples} {round : Nat} (held : Holds sampler clock size round s) :
    ∃ s' : Samples, (s.extend sampler size).run (clockAfter sampler clock (round * size)) =
        (s', clockAfter sampler clock ((round + 1) * size)) ∧
      Holds sampler clock size (round + 1) s'.sorted := by
  obtain ⟨s', ran, quicks, slows⟩ := Calibration.run_extend sampler clock size (round * size) s
  refine ⟨s', by rw [Nat.succ_mul]; exact ran, ⟨?_, ?_⟩⟩
  · rw [firstRounds_succ, ← held.quick, roundOf, ← quicks]
    exact Multiset.coe_eq_coe.mpr (List.mergeSort_perm ..)
  · rw [firstRounds_succ, ← held.slow, roundOf, ← slows]
    exact Multiset.coe_eq_coe.mpr (List.mergeSort_perm ..)

theorem median_eq_of_isMedian {values : List Nat} {all : Multiset Nat} {m : Nat}
    (whole : (values.mergeSort : Multiset Nat) = all) (positive : 0 < all.card)
    (isMedian : IsMedian all m) : median values.mergeSort = m := by
  have same : (values : Multiset Nat) = all :=
    (Multiset.coe_eq_coe.mpr (List.mergeSort_perm ..).symm).trans whole
  subst same
  exact (isMedian_median_mergeSort values (List.ne_nil_of_length_pos positive)).unique isMedian

/-- What one round does: it answers if the medians after it tell the cost, else the walk goes on. -/
theorem Holds.run_rounds {s : Samples} {round : Nat} (held : Holds sampler clock size round s)
    (medians : Medians sampler clock size last quick slow) (positive : 0 < size)
    (within : round < last) (targetMillis fallback remaining : Nat) :
    ∃ s' : Samples, Holds sampler clock size (round + 1) s' ∧
      (rounds sampler size targetMillis fallback (remaining + 1) s).run
          (clockAfter sampler clock (round * size)) =
        if Telling (quick (round + 1)) (slow (round + 1)) then
          (answer targetMillis (quick (round + 1)) (slow (round + 1)),
            clockAfter sampler clock ((round + 1) * size))
        else (rounds sampler size targetMillis fallback remaining s').run
          (clockAfter sampler clock ((round + 1) * size)) := by
  obtain ⟨s', ran, held'⟩ := held.run_extend
  have sampled (values : Nat → Nat) : 0 < (firstRounds values size (round + 1)).card :=
    card_firstRounds_pos values positive (Nat.succ_pos round)
  have quickMedian : median s'.sorted.quick = quick (round + 1) :=
    median_eq_of_isMedian held'.quick (sampled _) (medians.quick _ (Nat.succ_pos round) within)
  have slowMedian : median s'.sorted.slow = slow (round + 1) :=
    median_eq_of_isMedian held'.slow (sampled _) (medians.slow _ (Nat.succ_pos round) within)
  refine ⟨s'.sorted, held', ?_⟩
  rw [run_rounds_succ ran, estimate?_eq, quickMedian, slowMedian]
  by_cases telling : Telling (quick (round + 1)) (slow (round + 1))
  · rw [if_pos telling, if_pos telling]
  · rw [if_neg telling, if_neg telling]

/-- The first round that tells the cost answers. -/
theorem Holds.run_rounds_of_telling {s : Samples} {round r : Nat}
    (held : Holds sampler clock size round s)
    (medians : Medians sampler clock size last quick slow) (positive : 0 < size)
    (targetMillis fallback remaining : Nat) (room : round + remaining ≤ last) (later : round < r)
    (within : r ≤ round + remaining) (telling : Telling (quick r) (slow r))
    (first : ∀ q, round < q → q < r → ¬ Telling (quick q) (slow q)) :
    (rounds sampler size targetMillis fallback remaining s).run
        (clockAfter sampler clock (round * size)) =
      (answer targetMillis (quick r) (slow r), clockAfter sampler clock (r * size)) := by
  -- What is held after a round is all that the rounds to come depend on.
  induction remaining generalizing round s with
  | zero => omega
  | succ remaining ih =>
      obtain ⟨s', held', ran⟩ :=
        held.run_rounds medians positive (by omega) targetMillis fallback remaining
      rw [ran]
      rcases Nat.eq_or_lt_of_le (Nat.succ_le_of_lt later) with rfl | later
      · rw [if_pos telling]
      · rw [if_neg (first (round + 1) (Nat.lt_succ_self round) later)]
        exact ih held' (by omega) later (by omega) fun q after => first q (by omega)

/-- Rounds that do not tell the cost are all gone through. -/
theorem Holds.run_rounds_of_silent {s : Samples} {round : Nat}
    (held : Holds sampler clock size round s)
    (medians : Medians sampler clock size last quick slow) (positive : 0 < size)
    (targetMillis fallback remaining : Nat) (room : round + remaining ≤ last)
    (silent : ∀ r, round < r → r ≤ round + remaining → ¬ Telling (quick r) (slow r)) :
    (rounds sampler size targetMillis fallback remaining s).run
        (clockAfter sampler clock (round * size)) =
      (clamp fallback, clockAfter sampler clock ((round + remaining) * size)) := by
  induction remaining generalizing round s with
  | zero => rfl
  | succ remaining ih =>
      obtain ⟨s', held', ran⟩ :=
        held.run_rounds medians positive (by omega) targetMillis fallback remaining
      rw [ran, if_neg (silent (round + 1) (Nat.lt_succ_self round) (by omega)),
        ih held' (by omega) fun r later within => silent r (by omega) (by omega),
        show round + 1 + remaining = round + (remaining + 1) by omega]

end

/-! ## Calibrations -/

/-- `r` is the first of `last` rounds after which the medians tell the cost. -/
structure FirstTelling (quick slow : Nat → Nat) (last r : Nat) : Prop where
  positive : 0 < r
  within : r ≤ last
  telling : Telling (quick r) (slow r)
  first : ∀ q, 0 < q → q < r → ¬ Telling (quick q) (slow q)

theorem exists_firstTelling_or_silent (quick slow : Nat → Nat) (last : Nat) :
    (∃ r, FirstTelling quick slow last r) ∨
      ∀ r, 0 < r → r ≤ last → ¬ Telling (quick r) (slow r) := by
  by_cases some : ∃ r, 0 < r ∧ r ≤ last ∧ Telling (quick r) (slow r)
  · obtain ⟨positive, within, telling⟩ := Nat.find_spec some
    refine .inl ⟨Nat.find some, positive, within, telling, fun q positive less telling => ?_⟩
    exact Nat.find_min some less ⟨positive, by omega, telling⟩
  · exact .inr fun r positive within telling => some ⟨r, positive, within, telling⟩

section

variable {σ τ : Type} {sampler : Nat → StateM σ Nat} {clock : σ} {config : Config}
  {quick slow : Nat → Nat} {targetMillis targetMillis' r : Nat}

theorem exists_medians (sampler : Nat → StateM σ Nat) (clock : σ) {size : Nat} (positive : 0 < size)
    (last : Nat) : ∃ quick slow, Medians sampler clock size last quick slow := by
  have each (values : Nat → Nat) (r : Nat) :
      ∃ m, 0 < r → IsMedian (firstRounds values size r) m := by
    by_cases later : 0 < r
    · obtain ⟨m, isMedian⟩ := exists_isMedian (card_firstRounds_pos values positive later)
      exact ⟨m, fun _ => isMedian⟩
    · exact ⟨0, fun other => absurd other later⟩
  choose quick isQuick using each (quickAt sampler clock)
  choose slow isSlow using each (slowAt sampler clock)
  exact ⟨quick, slow, fun r later _ => isQuick r later, fun r later _ => isSlow r later⟩

theorem size_pos (config : Config) : 0 < max config.samples 1 := by
  omega

theorem exists_medians_cases (sampler : Nat → StateM σ Nat) (clock : σ) (config : Config) :
    ∃ quick slow, Medians sampler clock (max config.samples 1) config.maxRounds quick slow ∧
      ((∃ r, FirstTelling quick slow config.maxRounds r) ∨
        ∀ r, 0 < r → r ≤ config.maxRounds → ¬ Telling (quick r) (slow r)) := by
  obtain ⟨quick, slow, medians⟩ :=
    exists_medians sampler clock (size_pos config) config.maxRounds
  exact ⟨quick, slow, medians, exists_firstTelling_or_silent quick slow config.maxRounds⟩

theorem holds_nothing (sampler : Nat → StateM σ Nat) (clock : σ) (size : Nat) :
    Holds sampler clock size 0 {} := by
  constructor <;> simp [firstRounds]

theorem chosen_of_telling
    (medians : Medians sampler clock (max config.samples 1) config.maxRounds quick slow)
    (telling : FirstTelling quick slow config.maxRounds r) (targetMillis : Nat) :
    chosen sampler clock config targetMillis =
      (answer targetMillis (quick r) (slow r),
        clockAfter sampler clock (r * max config.samples 1)) := by
  have ran := (holds_nothing sampler clock _).run_rounds_of_telling medians (size_pos config)
    targetMillis config.fallback config.maxRounds (by omega) telling.positive
    (by simpa using telling.within) telling.telling telling.first
  simpa [chosen, chooseIterations, clockAfter] using ran

theorem chosen_of_silent
    (medians : Medians sampler clock (max config.samples 1) config.maxRounds quick slow)
    (silent : ∀ r, 0 < r → r ≤ config.maxRounds → ¬ Telling (quick r) (slow r))
    (targetMillis : Nat) :
    chosen sampler clock config targetMillis =
      (clamp config.fallback,
        clockAfter sampler clock (config.maxRounds * max config.samples 1)) := by
  have ran := (holds_nothing sampler clock _).run_rounds_of_silent medians (size_pos config)
    targetMillis config.fallback config.maxRounds (by omega) (by simpa using silent)
  simpa [chosen, chooseIterations, clockAfter] using ran

/-- Every answer is within the accepted range. -/
theorem chosen_bounds (sampler : Nat → StateM σ Nat) (clock : σ) (config : Config)
    (targetMillis : Nat) :
    0 < (chosen sampler clock config targetMillis).1 ∧
      (chosen sampler clock config targetMillis).1 ≤ Vault.maxIterations := by
  obtain ⟨quick, slow, medians, ⟨r, telling⟩ | silent⟩ := exists_medians_cases sampler clock config
  · rw [chosen_of_telling medians telling]
    exact clamp_bounds _
  · rw [chosen_of_silent medians silent]
    exact clamp_bounds _

/-- A text can be sealed at whatever cost is chosen. -/
theorem exists_lock_chosen (sampler : Nat → StateM σ Nat) (clock : σ) (config : Config)
    (targetMillis : Nat) (salt nonce : Block) (password : String) {plaintext : Bytes}
    (short : plaintext.length ≤ Secret.maxPlaintext) :
    ∃ blob, Vault.lock ⟨salt, (chosen sampler clock config targetMillis).1, nonce⟩ password
      plaintext = .ok blob :=
  ⟨_, (Vault.lock_eq_ok_iff _).mpr
    ⟨Vault.Header.isUsable_iff.mpr (chosen_bounds ..), short, rfl⟩⟩

/-- Clocks with the same values in each round, in whatever order, have the same medians. -/
theorem Medians.congr {other : Nat → StateM τ Nat} {start : τ} {size last : Nat}
    (medians : Medians sampler clock size last quick slow)
    (same : ∀ round < last,
      roundOf (quickAt sampler clock) size round = roundOf (quickAt other start) size round ∧
        roundOf (slowAt sampler clock) size round = roundOf (slowAt other start) size round) :
    Medians other start size last quick slow := by
  refine ⟨fun r later within => ?_, fun r later within => ?_⟩
  · rw [← firstRounds_congr (fun round before => (same round before).1) within]
    exact medians.quick r later within
  · rw [← firstRounds_congr (fun round before => (same round before).2) within]
    exact medians.slow r later within

theorem chosen_congr {other : Nat → StateM τ Nat} {start : τ}
    (same : ∀ round < config.maxRounds,
      roundOf (quickAt sampler clock) (max config.samples 1) round =
          roundOf (quickAt other start) (max config.samples 1) round ∧
        roundOf (slowAt sampler clock) (max config.samples 1) round =
          roundOf (slowAt other start) (max config.samples 1) round)
    (targetMillis : Nat) :
    (chosen sampler clock config targetMillis).1 = (chosen other start config targetMillis).1 := by
  obtain ⟨quick, slow, medians, outcome⟩ := exists_medians_cases sampler clock config
  have medians' := medians.congr same
  rcases outcome with ⟨r, telling⟩ | silent
  · rw [chosen_of_telling medians telling, chosen_of_telling medians' telling]
  · rw [chosen_of_silent medians silent, chosen_of_silent medians' silent]

theorem chosen_mono (sampler : Nat → StateM σ Nat) (clock : σ) (config : Config)
    (less : targetMillis ≤ targetMillis') :
    (chosen sampler clock config targetMillis).1 ≤
      (chosen sampler clock config targetMillis').1 := by
  obtain ⟨quick, slow, medians, ⟨r, telling⟩ | silent⟩ := exists_medians_cases sampler clock config
  · rw [chosen_of_telling medians telling, chosen_of_telling medians telling]
    exact answer_mono telling.telling less
  · rw [chosen_of_silent medians silent, chosen_of_silent medians silent]

theorem isMedian_firstRounds_of_constant {values : Nat → Nat} {v size : Nat}
    (constant : ∀ pair, values pair = v) (positive : 0 < size) (later : 0 < r) :
    IsMedian (firstRounds values size r) v := by
  have all : firstRounds values size r = Multiset.replicate (r * size) v := by
    simp [firstRounds, constant]
  rw [all]
  exact isMedian_replicate (Nat.mul_pos later positive) v

/-- A cost that is a fixed part and a part for each iteration is told by the first round. -/
theorem chosen_of_linear {a b : Nat} (fixed : 0 < a) (each : 0 < b)
    (linear : ∀ n state, ((sampler n).run state).1 = a + b * n) (some : 0 < config.maxRounds)
    (targetMillis : Nat) :
    chosen sampler clock config targetMillis =
      (clamp (((targetMillis * 1000000 : Nat) - a : Int).tdiv b),
        clockAfter sampler clock (max config.samples 1)) := by
  have medians : Medians sampler clock (max config.samples 1) config.maxRounds
      (fun _ => a + b * 1) (fun _ => a + b * 2) :=
    ⟨fun r later _ => isMedian_firstRounds_of_constant (fun pair => linear 1 _) (size_pos config)
        later,
      fun r later _ => isMedian_firstRounds_of_constant (fun pair => linear 2 _) (size_pos config)
        later⟩
  have telling : FirstTelling (fun _ => a + b * 1) (fun _ => a + b * 2) config.maxRounds 1 :=
    ⟨Nat.one_pos, some, ⟨by omega, by omega⟩, fun q positive less => by omega⟩
  have fixedPart : (2 * (a + b * 1 : Nat) - (a + b * 2 : Nat) : Int) = a := by omega
  have eachPart : ((a + b * 2 : Nat) - (a + b * 1 : Nat) : Int) = b := by omega
  rw [chosen_of_telling medians telling, answer, fixedPart, eachPart, Nat.one_mul]

end

/-- A calibration goes by the medians of all durations with one and with two iterations, round by
    round: it stops after the first round in which an iteration and the rest take time, with the
    number of iterations for which the target leaves time, else after the last round with the
    fallback. So a text can be sealed at every cost that it chooses; the cost does not depend on the
    order of durations within a round, does not fall when the target grows, is the exact quotient
    for a clock that is linear, and takes no step that cannot be done in machine words. -/
theorem chosen_by_medians {σ : Type} (sampler : Nat → StateM σ Nat) (clock : σ) (config : Config) :
    (∃ quick slow, Medians sampler clock (max config.samples 1) config.maxRounds quick slow) ∧
    (∀ quick slow, Medians sampler clock (max config.samples 1) config.maxRounds quick slow →
      ∀ targetMillis,
        (∀ r, FirstTelling quick slow config.maxRounds r →
          chosen sampler clock config targetMillis =
            (clamp (((targetMillis * 1000000 : Nat) - (2 * quick r - slow r : Int)).tdiv
                (slow r - quick r)),
              clockAfter sampler clock (r * max config.samples 1))) ∧
        ((∀ r, 0 < r → r ≤ config.maxRounds → ¬ Telling (quick r) (slow r)) →
          chosen sampler clock config targetMillis =
            (clamp config.fallback,
              clockAfter sampler clock (config.maxRounds * max config.samples 1)))) ∧
    (∀ targetMillis salt nonce password plaintext, plaintext.length ≤ Secret.maxPlaintext →
      ∃ blob, Vault.lock ⟨salt, (chosen sampler clock config targetMillis).1, nonce⟩ password
        plaintext = .ok blob) ∧
    (∀ {τ : Type} (other : Nat → StateM τ Nat) (start : τ),
      (∀ round < config.maxRounds,
        roundOf (quickAt sampler clock) (max config.samples 1) round =
            roundOf (quickAt other start) (max config.samples 1) round ∧
          roundOf (slowAt sampler clock) (max config.samples 1) round =
            roundOf (slowAt other start) (max config.samples 1) round) →
      ∀ targetMillis, (chosen sampler clock config targetMillis).1 =
        (chosen other start config targetMillis).1) ∧
    (∀ targetMillis targetMillis', targetMillis ≤ targetMillis' →
      (chosen sampler clock config targetMillis).1 ≤
        (chosen sampler clock config targetMillis').1) ∧
    (∀ a b : Nat, 0 < a → 0 < b → (∀ n state, ((sampler n).run state).1 = a + b * n) →
      0 < config.maxRounds → ∀ targetMillis,
        (chosen sampler clock config targetMillis).1 =
          clamp (((targetMillis * 1000000 : Nat) - a : Int).tdiv b)) ∧
    ((∀ n state, ((sampler n).run state).1 ≤ maxDuration) → ∀ targetMillis < UInt64.size,
      (chooseWordIterations config targetMillis sampler).run clock =
        Prod.map some id (chosen sampler clock config targetMillis)) := by
  refine ⟨exists_medians sampler clock (size_pos config) _, ?medians, ?accepted, ?order, ?target,
    ?linear, ?words⟩
  case medians =>
    intro quick slow medians targetMillis
    exact ⟨fun r telling => chosen_of_telling medians telling targetMillis,
      fun silent => chosen_of_silent medians silent targetMillis⟩
  case accepted =>
    intro targetMillis salt nonce password plaintext short
    exact exists_lock_chosen sampler clock config targetMillis salt nonce password short
  case order =>
    intro τ other start same targetMillis
    exact chosen_congr same targetMillis
  case target =>
    intro targetMillis targetMillis' less
    exact chosen_mono sampler clock config less
  case linear =>
    intro a b fixed each linear some targetMillis
    rw [chosen_of_linear fixed each linear some]
  case words =>
    intro clocked targetMillis target
    exact run_chooseWordIterations clocked target config clock

/-- A clock that shows nothing for its first four derivations. Its state counts them. -/
def coarseClock (iterations : Nat) : StateM Nat Nat :=
  fun calls => (if calls < 4 then 0 else 1000 + 1000 * iterations, calls + 1)

/-- Two samples of a round that shows nothing and two of one that does have their medians in
    between, and a calibration goes by these and not by those of the second round alone. -/
theorem chosen_by_medians_coarse :
    chosen coarseClock 0 { samples := 2, maxRounds := 3 } 1 = (1999, 8) := by
  have quick : ∀ r, 0 < r → r ≤ 3 →
      IsMedian (firstRounds (quickAt coarseClock 0) 2 r) (1000 * (r - 1)) := by
    intro r later within
    obtain rfl | rfl | rfl : r = 1 ∨ r = 2 ∨ r = 3 := by omega
    · exact ⟨0, 0, by decide, by decide, rfl⟩
    · exact ⟨0, 2000, by decide, by decide, rfl⟩
    · exact ⟨2000, 2000, by decide, by decide, rfl⟩
  have slow : ∀ r, 0 < r → r ≤ 3 →
      IsMedian (firstRounds (slowAt coarseClock 0) 2 r) (1500 * (r - 1)) := by
    intro r later within
    obtain rfl | rfl | rfl : r = 1 ∨ r = 2 ∨ r = 3 := by omega
    · exact ⟨0, 0, by decide, by decide, rfl⟩
    · exact ⟨0, 3000, by decide, by decide, rfl⟩
    · exact ⟨3000, 3000, by decide, by decide, rfl⟩
  have telling : FirstTelling (fun r => 1000 * (r - 1)) (fun r => 1500 * (r - 1)) 3 2 := by
    refine ⟨by decide, by decide, by decide, fun q positive less => ?_⟩
    obtain rfl : q = 1 := by omega
    decide
  exact ((chosen_by_medians coarseClock 0 { samples := 2, maxRounds := 3 }).2.1
    (fun r => 1000 * (r - 1)) (fun r => 1500 * (r - 1)) ⟨quick, slow⟩ 1).1 2 telling

end Courier.Calibration
