import Courier.Proofs.Connection.Accounting
import Courier.Proofs.Session.Memory

/-! # How much a frame may carry

The budget of a writer is what is left of its capacity once the tag, if it is
still due, and the costs of two frames are paid for, and never more than a frame
may hold. So a payload within the budget goes out and leaves room for the final
frame, and a longer one is refused or leaves no such room. A connection whose
payloads keep to the budget can therefore be closed at any time.
-/

namespace Courier.FrameWriter

variable {δ : Type} {sink : Sink δ} {w : FrameWriter δ} {payload : Bytes}

/-- The connection can be closed as it is: it is empty, or the final frame still fits. -/
structure Closable (w : FrameWriter δ) : Prop where
  sound : w.faulted = false
  unfinished : w.finished = false
  numbers : w.frames ≤ Frame.maxNumber
  room : w.pendingTag.isSome = true ∨ Frame.overhead ≤ w.remaining

/-- Each payload has bytes and is within the budget that is left when it is written. -/
def Budgeted (sink : Sink δ) : FrameWriter δ → List Bytes → Prop
  | _, [] => True
  | w, payload :: payloads =>
      payload ≠ [] ∧ payload.length ≤ w.payloadBudget ∧
        Budgeted sink (w.write sink payload false).2 payloads

/-! ## Closing -/

theorem Closable.finish (reliable : sink.Reliable) (closable : w.Closable) :
    ∃ closed, w.finish sink = (.ok (), closed) := by
  obtain ⟨sound, unfinished, numbers, room⟩ := closable
  cases due : w.pendingTag with
  | some tag =>
      obtain ⟨closed, flushed⟩ := exists_flush reliable w
      exact ⟨closed, by simp [FrameWriter.finish, sound, due, flushed]⟩
  | none =>
      have enough : w.cost 0 ≤ w.remaining := by
        simpa [cost, tagCost, due] using room
      have fits : w.refusal? ([] : Bytes).length = none :=
        (refusal?_eq_none_iff w 0).mpr ⟨sound, unfinished, Nat.zero_le _, numbers, enough⟩
      obtain ⟨last, written⟩ := write_of_room reliable fits true
      obtain ⟨closed, flushed⟩ := exists_flush reliable last
      exact ⟨closed, by simp [FrameWriter.finish, sound, unfinished, due, written, flushed]⟩

/-- Without room for the final frame, closing is refused and changes nothing. -/
theorem finish_of_narrow (sound : w.faulted = false) (unfinished : w.finished = false)
    (sent : w.pendingTag = none) (numbers : w.frames ≤ Frame.maxNumber)
    (narrow : w.remaining < Frame.overhead) :
    w.finish sink = (.error (.capacityExceeded Frame.overhead w.remaining), w) := by
  have cost : w.cost 0 = Frame.overhead := by simp [cost, tagCost, sent]
  have refused : w.refusal? 0 = some (.capacityExceeded Frame.overhead w.remaining) := by
    simp [refusal?, sound, unfinished, Nat.not_lt.mpr numbers, cost, narrow]
  have unwritten : w.write sink [] true =
      (.error (.capacityExceeded Frame.overhead w.remaining), w) := by
    simp only [write, List.length_nil, refused]
  simp [FrameWriter.finish, sound, unfinished, sent, unwritten]

/-! ## One more frame -/

/-- What is left after a frame, once it and the tag are paid for. -/
theorem closable_advanced_iff (sound : w.faulted = false) (numbers : w.frames < Frame.maxNumber)
    (outlet' : Outlet δ) (length : Nat) :
    (w.advanced outlet' length false).Closable ↔
      Frame.overhead ≤ w.remaining - w.cost length := by
  constructor
  · rintro ⟨-, -, -, room⟩
    simpa [advanced] using room
  · intro room
    exact ⟨sound, rfl, numbers, .inr room⟩

/-- A payload within the budget is written, and the connection can be closed after it. -/
theorem closable_of_budget (reliable : sink.Reliable) (sound : w.faulted = false)
    (unfinished : w.finished = false) (numbers : w.frames < Frame.maxNumber)
    (some : payload ≠ []) (fits : payload.length ≤ w.payloadBudget) :
    ∃ w', w.write sink payload false = (.ok (), w') ∧ w'.Closable ∧ w'.frames = w.frames + 1 := by
  have positive := List.length_pos_iff.mpr some
  have accepted :=
    refusal?_of_budget sound unfinished (Nat.le_of_lt numbers) positive fits
  obtain ⟨w', written⟩ := write_of_room reliable accepted false
  obtain ⟨-, outlet', -, rfl⟩ := (write_eq_ok_iff w w' payload false).mp written
  refine ⟨_, written, (closable_advanced_iff sound numbers outlet' _).mpr ?_, rfl⟩
  rw [payloadBudget] at fits
  rw [cost]
  omega

/-- A payload beyond the budget is refused, or it leaves no room for the final frame. -/
theorem finish_of_large (reliable : sink.Reliable) (sound : w.faulted = false)
    (numbers : w.frames < Frame.maxNumber) (large : w.payloadBudget < payload.length) :
    (∃ fault, fault.isRefusal = true ∧ w.write sink payload false = (.error fault, w)) ∨
      ∃ w', w.write sink payload false = (.ok (), w') ∧
        w'.finish sink = (.error (.capacityExceeded Frame.overhead w'.remaining), w') := by
  cases refused : w.refusal? payload.length with
  | some fault =>
      exact .inl ⟨fault, isRefusal_of_refusal? sound refused, by simp only [write, refused]⟩
  | none =>
      obtain ⟨w', written⟩ := write_of_room reliable refused false
      obtain ⟨-, outlet', -, rfl⟩ := (write_eq_ok_iff w w' payload false).mp written
      obtain ⟨-, -, short, -, enough⟩ := (refusal?_eq_none_iff w _).mp refused
      have narrow : (w.advanced outlet' payload.length false).remaining < Frame.overhead := by
        rw [payloadBudget] at large
        rw [cost] at enough
        simp only [advanced, cost]
        omega
      exact .inr ⟨_, written, finish_of_narrow sound rfl rfl numbers narrow⟩

/-! ## Whole connections -/

/-- Payloads that keep to the budget are all written, and the connection can be closed after them
    if it could be before, or if there are any. -/
theorem closable_of_budgeted (reliable : sink.Reliable) {payloads : List Bytes}
    (sound : w.faulted = false) (unfinished : w.finished = false)
    (numbers : w.frames + payloads.length ≤ Frame.maxNumber)
    (budgeted : w.Budgeted sink payloads) (begins : payloads ≠ [] ∨ w.Closable) :
    ∃ w', w.writeEach sink (payloads.map fun payload => (payload, false)) = (.ok (), w') ∧
      w'.Closable := by
  induction payloads generalizing w with
  | nil => exact ⟨w, rfl, begins.resolve_left (absurd rfl)⟩
  | cons payload payloads ih =>
      obtain ⟨some, fits, rest⟩ := budgeted
      rw [List.length_cons] at numbers
      obtain ⟨between, written, closable, count⟩ :=
        closable_of_budget reliable sound unfinished (by omega) some fits
      rw [written] at rest
      obtain ⟨w', others, last⟩ :=
        ih closable.sound closable.unfinished (by omega) rest (.inr closable)
      exact ⟨w', (writeEach_cons_eq_ok_iff ..).mpr ⟨between, written, others⟩, last⟩

/-- A payload with bytes can be written and the connection closed after it exactly if the payload is
    within the budget. A longer one is refused, or it is written and closing is refused for want of
    capacity. So whatever the capacity, a connection all of whose payloads keep to the budget, each
    at its time, can be closed as long as there are frame numbers. -/
theorem payloadBudget_exact (reliable : sink.Reliable) (sound : w.faulted = false)
    (unfinished : w.finished = false) :
    (w.frames < Frame.maxNumber →
      (∀ payload, payload ≠ [] → payload.length ≤ w.payloadBudget →
        ∃ w' closed, w.write sink payload false = (.ok (), w') ∧
          w'.finish sink = (.ok (), closed)) ∧
      (∀ payload, w.payloadBudget < payload.length →
        (∃ fault, fault.isRefusal = true ∧ w.write sink payload false = (.error fault, w)) ∨
          ∃ w', w.write sink payload false = (.ok (), w') ∧
            w'.finish sink = (.error (.capacityExceeded Frame.overhead w'.remaining), w'))) ∧
    (∀ payloads, w.Budgeted sink payloads → w.frames + payloads.length ≤ Frame.maxNumber →
      (w.pendingTag.isSome = true ∨ payloads ≠ []) →
      ∃ w' closed, w.writeEach sink (payloads.map fun payload => (payload, false)) = (.ok (), w') ∧
        w'.finish sink = (.ok (), closed)) := by
  refine ⟨fun numbers => ⟨fun payload some fits => ?_, fun payload large => ?_⟩,
    fun payloads budgeted numbers begins => ?_⟩
  · obtain ⟨w', written, closable, -⟩ :=
      closable_of_budget reliable sound unfinished numbers some fits
    obtain ⟨closed, finished⟩ := closable.finish reliable
    exact ⟨w', closed, written, finished⟩
  · exact finish_of_large reliable sound numbers large
  · have start : payloads ≠ [] ∨ w.Closable := by
      rcases begins with due | some
      · exact .inr ⟨sound, unfinished, by omega, .inl due⟩
      · exact .inl some
    obtain ⟨w', written, closable⟩ :=
      closable_of_budgeted reliable sound unfinished numbers budgeted start
    obtain ⟨closed, finished⟩ := closable.finish reliable
    exact ⟨w', closed, written, finished⟩

/-- A new writer with room for the tag, two frames and five bytes. -/
theorem payloadBudget_exact_five :
    ∃ begun, make ({} : Memory.Outbound) 93 100 (.repeated 5) 3 .alice = .ok begun ∧
      begun.payloadBudget = 5 ∧
      (∃ w' closed, begun.write (Memory.sink {}) [1, 2, 3, 4, 5] false = (.ok (), w') ∧
        w'.finish (Memory.sink {}) = (.ok (), closed)) ∧
      ((∃ fault, fault.isRefusal = true ∧
          begun.write (Memory.sink {}) [1, 2, 3, 4, 5, 6] false = (.error fault, begun)) ∨
        ∃ w', begun.write (Memory.sink {}) [1, 2, 3, 4, 5, 6] false = (.ok (), w') ∧
          w'.finish (Memory.sink {}) =
            (.error (.capacityExceeded Frame.overhead w'.remaining), w')) ∧
      ∃ w' closed, begun.writeEach (Memory.sink {}) [([1, 2], false)] = (.ok (), w') ∧
        w'.finish (Memory.sink {}) = (.ok (), closed) := by
  have tagKey : ∀ key, (Secret.repeated 5).derive (.tagKey .alice) = .ok key →
      key.isBlank = false :=
    Secret.usable_of_computed (by decide +kernel)
  obtain ⟨tag, tagged⟩ : ∃ tag, Tag.make (Secret.repeated 5) 3 .alice = .ok tag :=
    tag_make_of_usable (by decide) (by decide) tagKey
  obtain ⟨key, derived⟩ : ∃ key, (Secret.repeated 5).derive (.frameKey .alice 3) = .ok key :=
    Secret.derive_of_usable _ (by decide) (by decide)
  have made := (make_eq_ok_iff ({} : Memory.Outbound) 93 100 (.repeated 5) 3 .alice _).mpr
    ⟨by decide, tag, key, tagged, derived, rfl⟩
  let begun : FrameWriter Memory.Outbound :=
    { outlet := { device := {} }, key, pendingTag := some tag, remaining := 93,
      maxLength := Frame.effectiveLength 100 }
  have budget : begun.payloadBudget = 5 := rfl
  have count : begun.frames = 0 := rfl
  obtain ⟨single, whole⟩ := payloadBudget_exact (w := begun)
    (Memory.sink_reliable Memory.WriteLimits.harmless_default) rfl rfl
  obtain ⟨within, beyond⟩ := single (by rw [count]; decide)
  have budgeted : begun.Budgeted (Memory.sink {}) [[1, 2]] :=
    ⟨by decide, by rw [budget]; decide, trivial⟩
  exact ⟨begun, made, budget, within _ (by decide) (by rw [budget]; decide),
    beyond _ (by rw [budget]; decide), whole _ budgeted (by rw [count]; decide) (.inl rfl)⟩

end Courier.FrameWriter
