import Courier.Connection.Roster

/-! # What a window accepts

A window stands for the set of stream numbers that were accepted: all below its
base and the marked ones from there on. The number at the base is never one of
them, because the window moves past every accepted number at its start. So a
number is accepted if it was not accepted before and no number below it that is
still open lags behind by the size of the window.
-/

namespace Courier.Window

/-- The stream number was accepted. -/
def Accepted (w : Window) (stream : Nat) : Prop :=
  stream < w.base ∨ w.seen[stream - w.base]? = some true

/-- The window holds the number at its base, and that one is open. -/
def Settled (w : Window) : Prop :=
  w.seen[0]? = some false

/-- No open number lags behind by `size`. -/
def Near (size : Nat) (accepted : Nat → Prop) (stream : Nat) : Prop :=
  ∀ earlier < stream, ¬ accepted earlier → stream < earlier + size

theorem Settled.not_accepted {w : Window} (settled : w.Settled) : ¬ w.Accepted w.base := by
  rintro (below | marked)
  · exact Nat.lt_irrefl _ below
  · rw [Nat.sub_self, settled] at marked
    cases marked

/-- A window of `size` numbers that has accepted these. -/
structure Holds (w : Window) (size : Nat) (accepted : Nat → Prop) : Prop where
  length : w.seen.length = size
  settled : w.Settled
  accepted_iff : ∀ stream, w.Accepted stream ↔ accepted stream

variable {w : Window} {stream size : Nat} {accepted : Nat → Prop}

theorem Holds.congr {others : Nat → Prop} (holds : w.Holds size accepted)
    (same : ∀ n, accepted n ↔ others n) : w.Holds size others :=
  ⟨holds.length, holds.settled, fun n => (holds.accepted_iff n).trans (same n)⟩

theorem fresh_holds (some : 0 < size) (base : Nat) : (fresh size base).Holds size (· < base) where
  length := List.length_replicate
  settled := by simp [Settled, fresh, some]
  accepted_iff := by
    intro stream
    constructor
    · rintro (below | marked)
      · exact below
      · rw [fresh, List.getElem?_replicate] at marked
        split at marked <;> cases marked
    · exact .inl

/-! ## Moving on -/

private theorem split_marks (marks : List Bool) :
    let run := (marks.takeWhile id).length
    marks = List.replicate run true ++ marks.drop run ∧ (marks.drop run)[0]? ≠ some true := by
  induction marks with
  | nil => simp
  | cons mark marks ih =>
      cases mark with
      | false => simp
      | true =>
          obtain ⟨split, first⟩ := ih
          exact ⟨congrArg (true :: ·) split, first⟩

/-- A window moves past the marks at its start. -/
private theorem slide_eq (w : Window) :
    ∃ run rest, w.seen = List.replicate run true ++ rest ∧ rest[0]? ≠ some true ∧
      w.slide = ⟨w.base + run, rest ++ List.replicate run false⟩ := by
  obtain ⟨split, first⟩ := split_marks w.seen
  exact ⟨_, _, split, first, rfl⟩

theorem length_slide (w : Window) : w.slide.seen.length = w.seen.length := by
  obtain ⟨run, rest, seen, -, slid⟩ := slide_eq w
  simp [slid, seen, Nat.add_comm]

theorem accepted_slide (w : Window) (stream : Nat) :
    w.slide.Accepted stream ↔ w.Accepted stream := by
  obtain ⟨run, rest, seen, -, slid⟩ := slide_eq w
  simp only [Accepted, slid, seen]
  by_cases below : stream < w.base
  · simp only [below, true_or, iff_true]
    omega
  by_cases marked : stream - w.base < run
  · have passed : stream < w.base + run := by omega
    simp [passed, List.getElem?_append_left, marked]
  · have beyond : ¬ stream < w.base + run := by omega
    have place : stream - w.base - run = stream - (w.base + run) := by omega
    have skip : (List.replicate run true ++ rest)[stream - w.base]? =
        rest[stream - (w.base + run)]? := by
      rw [List.getElem?_append_right (by simpa using marked), List.length_replicate, place]
    rw [skip]
    simp only [below, beyond, false_or]
    by_cases inside : stream - (w.base + run) < rest.length
    · rw [List.getElem?_append_left inside]
    · have past : rest[stream - (w.base + run)]? = none := List.getElem?_eq_none (by omega)
      rw [past, List.getElem?_append_right (by omega), List.getElem?_replicate]
      split <;> simp

theorem settled_slide (some : 0 < w.seen.length) : w.slide.Settled := by
  obtain ⟨run, rest, seen, first, slid⟩ := slide_eq w
  rw [Settled, slid]
  cases rest with
  | nil =>
      have positive : 0 < run := by simpa [seen] using some
      simp [positive]
  | cons mark rest =>
      cases mark with
      | false => rfl
      | true => exact absurd rfl first

/-! ## Accepting -/

/-- An open number in the window is accepted, and nothing else with it. -/
theorem accept?_of_open (above : ¬ w.Accepted stream)
    (inside : stream < w.base + w.seen.length) :
    ∃ w', w.accept? stream = some w' ∧
      w'.Holds w.seen.length fun n => w.Accepted n ∨ n = stream := by
  have atLeast : ¬ stream < w.base := fun below => above (.inl below)
  have place : stream - w.base < w.seen.length := by omega
  have unmarked : w.seen[stream - w.base]? = some false := by
    rw [List.getElem?_eq_getElem place, Option.some.injEq, Bool.eq_false_iff]
    intro marked
    exact above (.inr (by rw [List.getElem?_eq_getElem place, marked]))
  have length : (w.seen.set (stream - w.base) true).length = w.seen.length := List.length_set
  refine ⟨_, by rw [accept?, if_neg atLeast, unmarked], ?_, settled_slide ?_, fun n => ?_⟩
  · rw [length_slide, length]
  · rw [length]
    omega
  · rw [accepted_slide]
    simp only [Accepted, List.getElem?_set, place, if_true]
    by_cases same : n = stream
    · subst same
      simp
    · by_cases below : n < w.base
      · simp [below]
      · have elsewhere : ¬ stream - w.base = n - w.base := by omega
        simp [elsewhere, same]

theorem accept?_of_accepted (before : w.Accepted stream) : w.accept? stream = none := by
  rw [accept?]
  split
  · rfl
  next atLeast =>
    rcases before with below | marked
    · exact absurd below atLeast
    · rw [marked]

theorem accept?_of_far (far : w.base + w.seen.length ≤ stream) : w.accept? stream = none := by
  have outside : w.seen[stream - w.base]? = none := List.getElem?_eq_none (by omega)
  rw [accept?, outside]
  split <;> rfl

theorem Holds.accept (holds : w.Holds size accepted) (new : ¬ accepted stream)
    (near : Near size accepted stream) :
    ∃ w', w.accept? stream = some w' ∧ w'.Holds size fun n => accepted n ∨ n = stream := by
  obtain ⟨rfl, settled, accepted_iff⟩ := holds
  -- the base itself is open, and so it bounds what is near enough to all open numbers
  have open_ : ¬ accepted w.base := fun before =>
    settled.not_accepted ((accepted_iff _).mpr before)
  have above : ¬ w.Accepted stream := fun before => new ((accepted_iff stream).mp before)
  have inside : stream < w.base + w.seen.length := by
    rcases Nat.lt_trichotomy w.base stream with later | rfl | below
    · exact near w.base later open_
    · have some : 0 < w.seen.length := (List.getElem?_eq_some_iff.mp settled).1
      omega
    · exact absurd (.inl below) above
  obtain ⟨w', answer, length, settled', after⟩ := accept?_of_open above inside
  exact ⟨w', answer, length, settled', fun n => by rw [after, accepted_iff]⟩

theorem Holds.refuse (holds : w.Holds size accepted)
    (unfit : accepted stream ∨ ¬ Near size accepted stream) : w.accept? stream = none := by
  obtain ⟨rfl, settled, accepted_iff⟩ := holds
  rcases unfit with before | lags
  · exact accept?_of_accepted ((accepted_iff stream).mpr before)
  · simp only [Near, Classical.not_forall, Nat.not_lt] at lags
    -- an open number is not below the base, so a whole window after it is past the end
    obtain ⟨earlier, -, open_, far⟩ := lags
    have atLeast : w.base ≤ earlier := by
      refine Nat.le_of_not_lt fun below => open_ ?_
      exact (accepted_iff earlier).mp (.inl below)
    exact accept?_of_far (by omega)

/-- A window is told by its size and by the numbers that it has accepted: its base is the lowest of
    the others. -/
theorem Holds.unique {w' : Window} (holds : w.Holds size accepted) (also : w'.Holds size accepted) :
    w = w' := by
  obtain ⟨length, settled, accepted_iff⟩ := holds
  obtain ⟨length', settled', accepted_iff'⟩ := also
  have same : ∀ n, w.Accepted n ↔ w'.Accepted n := fun n =>
    (accepted_iff n).trans (accepted_iff' n).symm
  have base : w.base = w'.base := by
    refine Nat.le_antisymm (Nat.le_of_not_lt fun below => ?_) (Nat.le_of_not_lt fun below => ?_)
    · exact settled'.not_accepted ((same _).mp (.inl below))
    · exact settled.not_accepted ((same _).mpr (.inl below))
  have seen : w.seen = w'.seen := by
    refine List.ext_getElem (length.trans length'.symm) fun i inside inside' => ?_
    have marked := same (w.base + i)
    simp only [Accepted, ← base, Nat.not_lt.mpr (Nat.le_add_right w.base i), false_or,
      Nat.add_sub_cancel_left, List.getElem?_eq_getElem inside, List.getElem?_eq_getElem inside',
      Option.some.injEq] at marked
    exact Bool.eq_iff_iff.mpr marked
  cases w
  cases w'
  cases base
  cases seen
  rfl

end Courier.Window
