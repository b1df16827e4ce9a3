import Courier.Password.Calibration
import Mathlib.Data.List.GetD
import Mathlib.Data.Multiset.Filter

/-! # Medians

What a median is, said by counting and not by sorting: a value has a rank if no
more values than that are smaller and more than that are not larger. Every rank
belongs to one value, so a median depends on which values there are and not on
their order, and the middle of the sorted values is it.
-/

namespace Courier.Calibration

variable {values : Multiset Nat} {rank v w : Nat}

/-- `v` comes at place `rank` of the values in order of size, the first place being zero: at most
    `rank` values are smaller and more than `rank` are at most `v`. -/
def HasRank (values : Multiset Nat) (rank v : Nat) : Prop :=
  values.countP (· < v) ≤ rank ∧ rank < values.countP (· ≤ v)

instance (values : Multiset Nat) (rank v : Nat) : Decidable (HasRank values rank v) :=
  inferInstanceAs (Decidable (_ ∧ _))

/-- The mean of the two middle values, rounded down. Both are the one in the middle if their number
    is odd. -/
def IsMedian (values : Multiset Nat) (m : Nat) : Prop :=
  ∃ below above, HasRank values ((values.card - 1) / 2) below ∧
    HasRank values (values.card / 2) above ∧ m = (below + above) / 2

theorem HasRank.le (first : HasRank values rank v) (second : HasRank values rank w) : v ≤ w := by
  refine Nat.le_of_not_lt fun less => ?_
  have counts : values.countP (· ≤ w) ≤ values.countP (· < v) := by
    rw [Multiset.countP_eq_card_filter, Multiset.countP_eq_card_filter]
    exact Multiset.card_le_card
      (Multiset.monotone_filter_right values fun x below => Nat.lt_of_le_of_lt below less)
  exact Nat.lt_irrefl rank (Nat.lt_of_lt_of_le second.2 (Nat.le_trans counts first.1))

theorem HasRank.unique (first : HasRank values rank v) (second : HasRank values rank w) : v = w :=
  Nat.le_antisymm (first.le second) (second.le first)

theorem IsMedian.unique (first : IsMedian values v) (second : IsMedian values w) : v = w := by
  obtain ⟨below, above, low, high, rfl⟩ := first
  obtain ⟨below', above', low', high', rfl⟩ := second
  rw [low.unique low', high.unique high']

theorem hasRank_middle {front rest : List Nat}
    (ordered : (front ++ v :: rest).Pairwise (· ≤ ·)) :
    HasRank (front ++ v :: rest : List Nat) front.length v := by
  obtain ⟨-, tail, across⟩ := List.pairwise_append.mp ordered
  have before : ∀ x ∈ front, x ≤ v := fun x member => across x member v List.mem_cons_self
  have after : ∀ x ∈ v :: rest, v ≤ x :=
    List.forall_mem_cons.mpr ⟨Nat.le_refl v, (List.pairwise_cons.mp tail).1⟩
  rw [HasRank, Multiset.coe_countP, Multiset.coe_countP, List.countP_append, List.countP_append]
  constructor
  · have none : (v :: rest).countP (· < v) = 0 :=
      List.countP_eq_zero.mpr fun x member => by simpa using after x member
    rw [none]
    exact List.countP_le_length
  · have all : front.countP (· ≤ v) = front.length :=
      List.countP_eq_length.mpr fun x member => by simpa using before x member
    have one : 0 < (v :: rest).countP (· ≤ v) :=
      List.countP_pos_iff.mpr ⟨v, List.mem_cons_self, by simp⟩
    omega

theorem hasRank_getD {sorted : List Nat} (ordered : sorted.Pairwise (· ≤ ·))
    (within : rank < sorted.length) : HasRank sorted rank (sorted.getD rank 0) := by
  have parts : sorted.take rank ++ sorted[rank] :: sorted.drop (rank + 1) = sorted := by
    rw [List.getElem_cons_drop, List.take_append_drop]
  have placed := hasRank_middle (parts.symm ▸ ordered)
  rwa [parts, List.length_take_of_le (Nat.le_of_lt within),
    ← List.getD_eq_getElem _ 0 within] at placed

theorem isMedian_replicate {count : Nat} (positive : 0 < count) (v : Nat) :
    IsMedian (Multiset.replicate count v) v := by
  have placed {rank : Nat} (within : rank < count) :
      HasRank (Multiset.replicate count v) rank v := by
    rw [HasRank, ← Multiset.coe_replicate, Multiset.coe_countP, Multiset.coe_countP]
    simpa [List.countP_replicate] using within
  refine ⟨v, v, placed ?_, placed ?_, by omega⟩
  · rw [Multiset.card_replicate]
    omega
  · rw [Multiset.card_replicate]
    omega

/-- The middle of values in order of size is their median. -/
theorem isMedian_median {sorted : List Nat} (ordered : sorted.Pairwise (· ≤ ·))
    (some : sorted ≠ []) : IsMedian sorted (median sorted) := by
  have positive := List.length_pos_iff.mpr some
  refine ⟨_, _, hasRank_getD ordered ?_, hasRank_getD ordered ?_, ?_⟩
  · rw [Multiset.coe_card]
    omega
  · rw [Multiset.coe_card]
    omega
  · simp only [median, Multiset.coe_card]
    split
    next even => rw [show (sorted.length - 1) / 2 = sorted.length / 2 - 1 by omega]
    next odd =>
      rw [show (sorted.length - 1) / 2 = sorted.length / 2 by omega]
      omega

theorem sorted_ordered (values : List Nat) : values.mergeSort.Pairwise (· ≤ ·) := by
  have ordered : values.mergeSort.Pairwise (fun a b : Nat => decide (a ≤ b)) :=
    List.pairwise_mergeSort (fun a b c => by simpa using Nat.le_trans)
      (fun a b => by simpa using Nat.le_total a b) values
  simpa using ordered

/-- Whatever the order in which values were sorted, their middle is a median. -/
theorem isMedian_median_mergeSort (values : List Nat) (some : values ≠ []) :
    IsMedian values (median values.mergeSort) := by
  have same : (values : Multiset Nat) = values.mergeSort :=
    Multiset.coe_eq_coe.mpr (List.mergeSort_perm ..).symm
  rw [same]
  refine isMedian_median (sorted_ordered values) ?_
  rwa [← List.length_pos_iff, List.length_mergeSort, List.length_pos_iff]

theorem exists_isMedian (some : 0 < values.card) : ∃ m, IsMedian values m := by
  obtain ⟨values⟩ := values
  exact ⟨_, isMedian_median_mergeSort values (List.ne_nil_of_length_pos some)⟩

end Courier.Calibration
