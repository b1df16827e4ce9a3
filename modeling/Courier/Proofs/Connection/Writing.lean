import Courier.Connection.FrameWriter
import Courier.Proofs.Connection.Frame
import Courier.Proofs.Connection.Stream
import Courier.Proofs.Secret

/-! # What a frame writer puts out

A frame is refused for one of five reasons, and otherwise its bytes are offered
to the sink. What a writer has put out after whole frames is the tag, if it was
still due, and the bytes of the frames under consecutive numbers. With a sink
that never fails, only the limits of the connection can stop a writer.
-/

namespace Courier

/-- The longest payload for which there is room after these frames, and before the final one. -/
def Frame.roomAfter (capacity transportLimit : Nat) (frames : List Marked) : Nat :=
  min (capacity - (Tag.length + totalCost frames + 2 * overhead))
    (effectiveLength transportLimit - overhead)

namespace FrameWriter

variable {δ : Type} {sink : Sink δ}

/-! ## Keys -/

/-- The keys of a writer, and what it starts from. -/
theorem make_eq_ok_iff (device : δ) (capacity transportLimit : Nat) (secret : Secret)
    (stream : Nat) (role : Role) (w : FrameWriter δ) :
    make device capacity transportLimit secret stream role = .ok w ↔
      Frame.overhead < Frame.effectiveLength transportLimit ∧
        ∃ tag key, Tag.make secret stream role = .ok tag ∧
          secret.derive (.frameKey role stream) = .ok key ∧
          w = { outlet := { device }, key, pendingTag := some tag, remaining := capacity,
                maxLength := Frame.effectiveLength transportLimit } := by
  simp only [make]
  by_cases room : Frame.effectiveLength transportLimit ≤ Frame.overhead
  · simp [room, Nat.not_lt.mpr room]
  · cases made : Tag.make secret stream role with
    | error fault => simp [room, bind, Except.bind]
    | ok tag =>
        cases derived : secret.derive (.frameKey role stream) with
        | error fault => simp [room, bind, Except.bind]
        | ok key =>
            simp [room, bind, Except.bind, pure, Except.pure, eq_comm, Nat.lt_of_not_le room]

theorem tag_make_of_usable {secret : Secret} {stream : Nat} {role : Role}
    (usable : secret.isBlank = false) (range : stream ≤ maxContext)
    (tagKey : ∀ key, secret.derive (.tagKey role) = .ok key → key.isBlank = false) :
    ∃ tag, Tag.make secret stream role = .ok tag := by
  obtain ⟨key, derived⟩ := Secret.derive_of_usable (.tagKey role) usable (Nat.zero_le _)
  refine ⟨key.encipher (Tag.plain stream), ?_⟩
  simp [Tag.make, derived, bind, Except.bind, Tag.encode, Nat.not_lt.mpr range, tagKey key derived]

/-! ## One frame -/

theorem refusal?_eq_none_iff (w : FrameWriter δ) (length : Nat) :
    w.refusal? length = none ↔ w.faulted = false ∧ w.finished = false ∧ length ≤ w.maxPayload ∧
      w.frames ≤ Frame.maxNumber ∧ w.cost length ≤ w.remaining := by
  simp only [refusal?]
  repeat' split
  all_goals grind

/-- The writer after a frame with a payload of `length` bytes went out. -/
def advanced (w : FrameWriter δ) (outlet : Outlet δ) (length : Nat) (final : Bool) :
    FrameWriter δ :=
  { w with
    outlet
    pendingTag := none
    frames := w.frames + 1
    remaining := w.remaining - w.cost length
    written := w.written + w.cost length
    finished := final }

/-- A frame that was written: nothing stood against it, and the sink took all of it. -/
theorem write_eq_ok_iff (w w' : FrameWriter δ) (payload : Bytes) (final : Bool) :
    w.write sink payload final = (.ok (), w') ↔
      w.refusal? payload.length = none ∧
        ∃ outlet', sink.writeAll (w.nextBytes payload final) w.outlet = (.ok (), outlet') ∧
          w' = w.advanced outlet' payload.length final := by
  simp only [write, advanced]
  cases refused : w.refusal? payload.length with
  | some fault => simp
  | none =>
      rcases offered : sink.writeAll (w.nextBytes payload final) w.outlet with ⟨_ | _, outlet'⟩
      · simp
      · simp [eq_comm]

theorem length_nextBytes (w : FrameWriter δ) (payload : Bytes) (final : Bool) :
    (w.nextBytes payload final).length = w.cost payload.length := by
  rw [nextBytes, List.length_append, Frame.length_toBytes, cost, tagCost, Nat.add_assoc]
  cases w.pendingTag with
  | none => rfl
  | some tag => simp [Tag.length]

/-- The tag, as long as it is due. -/
def tagBytes (w : FrameWriter δ) : Bytes :=
  w.pendingTag.elim [] Block.toBytes

/-! ## Frames one after the other -/

/-- When frames were written, the first one was and then the others. -/
theorem writeEach_cons_eq_ok_iff (w w' : FrameWriter δ) (payload : Bytes) (final : Bool)
    (frames : List Frame.Marked) :
    w.writeEach sink ((payload, final) :: frames) = (.ok (), w') ↔
      ∃ between, w.write sink payload final = (.ok (), between) ∧
        between.writeEach sink frames = (.ok (), w') := by
  simp only [writeEach]
  rcases first : w.write sink payload final with ⟨fault | done, between⟩
  · simp
  · simp

/-- What holds of writing nothing, and of writing one frame before others that it holds of, holds of
    writing any frames. -/
theorem writeEach_induction
    {motive : List Frame.Marked → FrameWriter δ → FrameWriter δ → Prop}
    (nil : ∀ w, motive [] w w)
    (cons : ∀ payload final frames {w between w' : FrameWriter δ},
      w.write sink payload final = (.ok (), between) →
      motive frames between w' → motive ((payload, final) :: frames) w w')
    {frames : List Frame.Marked} {w w' : FrameWriter δ}
    (written : w.writeEach sink frames = (.ok (), w')) : motive frames w w' := by
  induction frames generalizing w with
  | nil =>
      obtain rfl := (Prod.mk.inj written).2
      exact nil w
  | cons frame frames ih =>
      obtain ⟨payload, final⟩ := frame
      obtain ⟨between, one, rest⟩ := (writeEach_cons_eq_ok_iff ..).mp written
      exact cons payload final frames one (ih rest)

theorem writeEach_taken {frames : List Frame.Marked} {w w' : FrameWriter δ}
    (some : frames ≠ []) (written : w.writeEach sink frames = (.ok (), w')) :
    w'.outlet.taken =
      w.outlet.taken ++ (w.tagBytes ++ Frame.bytesFrom w.key w.frames frames) := by
  induction frames generalizing w with
  | nil => exact absurd rfl some
  | cons frame rest ih =>
      obtain ⟨payload, final⟩ := frame
      obtain ⟨between, first, others⟩ := (writeEach_cons_eq_ok_iff ..).mp written
      obtain ⟨-, outlet', all, rfl⟩ := (write_eq_ok_iff w between payload final).mp first
      have taken := Sink.writeAll_taken all
      cases rest with
      | nil =>
          obtain rfl := (Prod.mk.inj others).2
          simp [advanced, taken, nextBytes, tagBytes, Frame.bytesFrom]
      | cons next rest =>
          rw [ih (List.cons_ne_nil _ _) others]
          simp [advanced, taken, nextBytes, tagBytes, Frame.bytesFrom]

/-- With a sink that never fails, a frame that nothing stands against is written. -/
theorem write_of_room (reliable : sink.Reliable) {w : FrameWriter δ} {payload : Bytes}
    (fits : w.refusal? payload.length = none) (final : Bool) :
    ∃ w', w.write sink payload final = (.ok (), w') := by
  obtain ⟨outlet', all⟩ := reliable.writeAll (w.nextBytes payload final) w.outlet
  exact ⟨_, (write_eq_ok_iff w _ payload final).mpr ⟨fits, outlet', all, rfl⟩⟩

/-- A complete connection that keeps to the limits can be written whole. -/
theorem writeEach_of_room (reliable : sink.Reliable) {frames : List Frame.Marked}
    (complete : Frame.Complete frames) {w : FrameWriter δ} (sound : w.faulted = false)
    (unfinished : w.finished = false) (within : Frame.Within w.maxLength frames)
    (numbers : w.frames + frames.length ≤ Frame.maxNumber + 1)
    (enough : w.tagCost + Frame.totalCost frames ≤ w.remaining) :
    ∃ w', w.writeEach sink frames = (.ok (), w') := by
  induction complete generalizing w with
  | last payload =>
      have short : payload.length + Frame.overhead ≤ w.maxLength := within (payload, true) (by simp)
      simp only [List.length_singleton, Frame.totalCost] at numbers enough
      have fits : w.refusal? payload.length = none :=
        (refusal?_eq_none_iff w payload.length).mpr
          ⟨sound, unfinished, by rw [maxPayload]; omega, by omega, by rw [cost]; omega⟩
      obtain ⟨w', written⟩ := write_of_room reliable fits true
      exact ⟨w', (writeEach_cons_eq_ok_iff ..).mpr ⟨w', written, rfl⟩⟩
  | @more payload frames rest ih =>
      have short : payload.length + Frame.overhead ≤ w.maxLength :=
        within (payload, false) (by simp)
      simp only [List.length_cons, Frame.totalCost] at numbers enough
      have fits : w.refusal? payload.length = none :=
        (refusal?_eq_none_iff w payload.length).mpr
          ⟨sound, unfinished, by rw [maxPayload]; omega, by omega, by rw [cost]; omega⟩
      obtain ⟨w', written⟩ := write_of_room reliable fits false
      obtain ⟨-, outlet', -, rfl⟩ := (write_eq_ok_iff w w' payload false).mp written
      have left : (w.advanced outlet' payload.length false).tagCost + Frame.totalCost frames ≤
          w.remaining - w.cost payload.length := by
        have noTag : (w.advanced outlet' payload.length false).tagCost = 0 := rfl
        rw [noTag, cost]
        omega
      obtain ⟨last, others⟩ := ih (w := w.advanced outlet' payload.length false) sound rfl
        within.tail (by simp only [advanced]; omega) left
      exact ⟨last, (writeEach_cons_eq_ok_iff ..).mpr ⟨_, written, others⟩⟩

theorem writeEach_append {first last : List Frame.Marked} {w between : FrameWriter δ}
    (written : w.writeEach sink first = (.ok (), between)) :
    w.writeEach sink (first ++ last) = between.writeEach sink last := by
  refine writeEach_induction
    (motive := fun first w between =>
      w.writeEach sink (first ++ last) = between.writeEach sink last) ?_ ?_ written
  · exact fun _ => rfl
  · intro payload final frames w after between one others
    rw [List.cons_append, writeEach, one]
    exact others

/-- Frames that were written kept to the limits of the writer, which knows how many they were. -/
theorem limits_of_writeEach {frames : List Frame.Marked} {w w' : FrameWriter δ}
    (written : w.writeEach sink frames = (.ok (), w')) :
    Frame.overhead ≤ w.maxLength → Frame.Within w.maxLength frames ∧
      (frames ≠ [] → w.frames + frames.length ≤ Frame.maxNumber + 1 ∧ w'.pendingTag = none) := by
  intro room
  induction frames generalizing w with
  | nil =>
      refine ⟨?_, fun some => absurd rfl some⟩
      intro frame member
      cases member
  | cons frame frames ih =>
      obtain ⟨payload, final⟩ := frame
      obtain ⟨between, one, others⟩ := (writeEach_cons_eq_ok_iff ..).mp written
      obtain ⟨fits, outlet', -, rfl⟩ := (write_eq_ok_iff w between payload final).mp one
      obtain ⟨-, -, short, range, -⟩ := (refusal?_eq_none_iff w _).mp fits
      rw [maxPayload] at short
      obtain ⟨within, numbers⟩ := ih others room
      constructor
      · intro frame member
        rcases List.mem_cons.mp member with rfl | member
        · simp only
          omega
        · exact within frame member
      · intro _
        cases frames with
        | nil =>
            obtain rfl := (Prod.mk.inj others).2
            exact ⟨by simp; omega, rfl⟩
        | cons next frames =>
            obtain ⟨numbers, tag⟩ := numbers (List.cons_ne_nil _ _)
            simp only [advanced, List.length_cons] at numbers ⊢
            exact ⟨by omega, tag⟩

theorem unfinished_of_writeEach {frames : List Frame.Marked} {w w' : FrameWriter δ}
    (unfinished : w.finished = false) (others : ∀ frame ∈ frames, frame.2 = false)
    (written : w.writeEach sink frames = (.ok (), w')) : w'.finished = false := by
  refine writeEach_induction
    (motive := fun frames w w' => w.finished = false → (∀ frame ∈ frames, frame.2 = false) →
      w'.finished = false) ?_ ?_ written unfinished others
  · exact fun _ unfinished _ => unfinished
  · intro payload final frames w between w' one ih _ others
    obtain ⟨-, outlet', -, rfl⟩ := (write_eq_ok_iff w between payload final).mp one
    exact ih (others (payload, final) (List.mem_cons_self ..))
      fun frame member => others frame (List.mem_cons_of_mem _ member)

/-- Closing a connection of some frames, none of them final, writes an empty final frame. -/
theorem write_of_finish {w w' : FrameWriter δ} (sent : w.pendingTag = none)
    (unfinished : w.finished = false) (closed : w.finish sink = (.ok (), w')) :
    ∃ last, w.writeEach sink [([], true)] = (.ok (), last) ∧ last.flush sink = (.ok (), w') := by
  simp only [finish, sent, unfinished] at closed
  split at closed
  · cases closed
  · simp only [Option.isSome_none, Bool.or_self, Bool.false_eq_true, if_false] at closed
    split at closed
    next last written =>
      exact ⟨last, (writeEach_cons_eq_ok_iff ..).mpr ⟨last, written, rfl⟩, closed⟩
    · cases closed

theorem exists_flush (reliable : sink.Reliable) (w : FrameWriter δ) :
    ∃ w', w.flush sink = (.ok (), w') := by
  obtain ⟨device', flushed⟩ := reliable.flushAll w.outlet
  exact ⟨_, by rw [flush, flushed]⟩

theorem taken_of_flush {w w' : FrameWriter δ} (flushed : w.flush sink = (.ok (), w')) :
    w'.outlet.taken = w.outlet.taken := by
  simp only [flush, Sink.flushAll] at flushed
  split at flushed
  next done =>
    obtain ⟨-, rfl⟩ := Prod.mk.inj flushed
    obtain ⟨-, rfl⟩ := Prod.mk.inj done
    rfl
  · cases flushed

/-! ## What frames cost -/

/-- What was put out between `w` and `w'` is what was charged for. -/
structure Charged (w w' : FrameWriter δ) : Prop where
  remaining : w'.outlet.taken.length + w'.remaining = w.outlet.taken.length + w.remaining
  written : w'.outlet.taken.length + w.written = w.outlet.taken.length + w'.written

theorem Charged.refl (w : FrameWriter δ) : Charged w w :=
  ⟨rfl, rfl⟩

theorem Charged.trans {w between w' : FrameWriter δ} (first : Charged w between)
    (then_ : Charged between w') : Charged w w' := by
  obtain ⟨remaining, written⟩ := first
  obtain ⟨remaining', written'⟩ := then_
  exact ⟨by omega, by omega⟩

theorem charged_write {w w' : FrameWriter δ} {payload : Bytes} {final : Bool}
    (written : w.write sink payload final = (.ok (), w')) : Charged w w' := by
  obtain ⟨fits, outlet', all, rfl⟩ := (write_eq_ok_iff w w' payload final).mp written
  obtain ⟨-, -, -, -, enough⟩ := (refusal?_eq_none_iff w _).mp fits
  have taken := congrArg List.length (Sink.writeAll_taken all)
  rw [List.length_append, length_nextBytes] at taken
  constructor
  · simp only [advanced, taken]
    omega
  · simp only [advanced, taken]
    omega

theorem remaining_of_write {w w' : FrameWriter δ} {payload : Bytes} {final : Bool}
    (written : w.write sink payload final = (.ok (), w')) :
    w'.remaining + Frame.overhead ≤ w.remaining := by
  obtain ⟨fits, outlet', -, rfl⟩ := (write_eq_ok_iff w w' payload final).mp written
  obtain ⟨-, -, -, -, enough⟩ := (refusal?_eq_none_iff w _).mp fits
  simp only [advanced]
  simp only [cost] at enough ⊢
  omega

/-- A frame that was not written is not charged for. -/
theorem remaining_of_failed {w w' : FrameWriter δ} {payload : Bytes} {final : Bool}
    {fault : ConnectionFault} (failed : w.write sink payload final = (.error fault, w')) :
    w'.remaining = w.remaining := by
  simp only [write] at failed
  split at failed
  · obtain ⟨-, rfl⟩ := Prod.mk.inj failed
    rfl
  · split at failed
    · obtain ⟨-, rfl⟩ := Prod.mk.inj failed
      rfl
    · cases failed

theorem charged_writeEach {frames : List Frame.Marked} {w w' : FrameWriter δ}
    (written : w.writeEach sink frames = (.ok (), w')) : Charged w w' :=
  writeEach_induction (motive := fun _ => Charged) .refl
    (fun _ _ _ _ _ _ one ih => (charged_write one).trans ih) written

/-- However writing a frame ends, no more is put out than may be. -/
theorem taken_write_le (sink : Sink δ) (w : FrameWriter δ) (payload : Bytes) (final : Bool) :
    (w.write sink payload final).2.outlet.taken.length ≤ w.outlet.taken.length + w.remaining := by
  simp only [write]
  cases refused : w.refusal? payload.length with
  | some fault => exact Nat.le_add_right ..
  | none =>
      obtain ⟨-, -, -, -, enough⟩ := (refusal?_eq_none_iff w _).mp refused
      obtain ⟨front, shorter, taken⟩ :=
        Sink.writeAll_front sink (w.nextBytes payload final) w.outlet
      have least := shorter.length_le
      rw [length_nextBytes] at least
      have bound : (sink.writeAll (w.nextBytes payload final) w.outlet).2.taken.length ≤
          w.outlet.taken.length + w.remaining := by
        rw [taken, List.length_append]
        omega
      rcases wrote : sink.writeAll (w.nextBytes payload final) w.outlet with ⟨fault | done, outlet⟩
      · rw [wrote] at bound
        exact bound
      · rw [wrote] at bound
        exact bound

theorem charged_flush (sink : Sink δ) (w : FrameWriter δ) : Charged w (w.flush sink).2 := by
  simp only [flush, Sink.flushAll]
  split
  next done =>
    obtain ⟨-, rfl⟩ := Prod.mk.inj done
    exact ⟨rfl, rfl⟩
  next failed =>
    obtain ⟨-, rfl⟩ := Prod.mk.inj failed
    exact ⟨rfl, rfl⟩

theorem charged_finish {w w' : FrameWriter δ} (closed : w.finish sink = (.ok (), w')) :
    Charged w w' := by
  simp only [finish] at closed
  split at closed
  · cases closed
  · split at closed
    · have flushed := charged_flush sink w
      rwa [closed] at flushed
    · split at closed
      next last written =>
        have flushed := charged_flush sink last
        rw [closed] at flushed
        exact (charged_write written).trans flushed
      next => cases closed

/-- Closing a connection puts out no more than may be, either. -/
theorem taken_finish_le (sink : Sink δ) (w : FrameWriter δ) :
    (w.finish sink).2.outlet.taken.length ≤ w.outlet.taken.length + w.remaining := by
  simp only [finish]
  split
  · exact Nat.le_add_right ..
  · split
    · have flushed := (charged_flush sink w).remaining
      omega
    · have wrote := taken_write_le sink w [] true
      split
      next last written =>
        have charged := (charged_write written).remaining
        have flushed := (charged_flush sink last).remaining
        omega
      next failed =>
        rw [failed] at wrote
        exact wrote

/-! ## Room -/

theorem maxLength_of_writeEach {frames : List Frame.Marked} {w w' : FrameWriter δ}
    (written : w.writeEach sink frames = (.ok (), w')) : w'.maxLength = w.maxLength := by
  refine writeEach_induction (motive := fun _ w w' => w'.maxLength = w.maxLength) ?_ ?_ written
  · exact fun _ => rfl
  · intro payload final frames w between w' one ih
    obtain ⟨-, outlet', -, rfl⟩ := (write_eq_ok_iff w between payload final).mp one
    exact ih

/-- A writer that wrote all frames has counted them and is as sound as before. -/
theorem count_of_writeEach {frames : List Frame.Marked} {w w' : FrameWriter δ}
    (written : w.writeEach sink frames = (.ok (), w')) :
    w'.frames = w.frames + frames.length ∧ w'.faulted = w.faulted := by
  refine writeEach_induction
    (motive := fun frames w w' => w'.frames = w.frames + frames.length ∧ w'.faulted = w.faulted)
    ?_ ?_ written
  · exact fun _ => ⟨rfl, rfl⟩
  · intro payload final frames w between w' one ih
    obtain ⟨-, outlet', -, rfl⟩ := (write_eq_ok_iff w between payload final).mp one
    obtain ⟨count, same⟩ := ih
    refine ⟨?_, same⟩
    simp only [count, advanced, List.length_cons]
    omega

/-- Within the budget, only a used up or faulted writer refuses a frame. -/
theorem refusal?_of_budget {w : FrameWriter δ} {length : Nat} (sound : w.faulted = false)
    (unfinished : w.finished = false) (numbers : w.frames ≤ Frame.maxNumber) (some : 0 < length)
    (fits : length ≤ w.payloadBudget) : w.refusal? length = none := by
  rw [payloadBudget] at fits
  refine (refusal?_eq_none_iff w length).mpr ⟨sound, unfinished, by omega, numbers, ?_⟩
  rw [cost]
  omega

theorem overhead_le_of_ofContext {context : Context} {device : δ} {capacity limit : Nat}
    {begun : FrameWriter δ} (made : ofContext context device capacity limit = .ok begun) :
    Frame.overhead ≤ begun.maxLength := by
  obtain ⟨room, tag, key, -, -, rfl⟩ := (make_eq_ok_iff ..).mp made
  exact Nat.le_of_lt room

/-- A new writer that has written these frames has this much room for one more before the last. -/
theorem payloadBudget_of_writeEach {context : Context} {device : δ} {capacity limit : Nat}
    {frames : List Frame.Marked} {begun w' : FrameWriter δ}
    (made : ofContext context device capacity limit = .ok begun)
    (written : begun.writeEach sink frames = (.ok (), w')) :
    w'.payloadBudget = Frame.roomAfter capacity limit frames := by
  obtain ⟨room, tag, key, -, -, fresh⟩ := (make_eq_ok_iff ..).mp made
  have length := maxLength_of_writeEach written
  have charged := (charged_writeEach written).remaining
  by_cases none : frames = []
  · subst none
    obtain rfl := (Prod.mk.inj written).2
    rw [fresh]
    rfl
  · have sent := ((limits_of_writeEach written (overhead_le_of_ofContext made)).2 none).2
    have bytes := congrArg List.length (writeEach_taken none written)
    have empty : begun.outlet.taken = [] := by
      rw [fresh]
      rfl
    have tagBytes : begun.tagBytes.length = Tag.length := by
      rw [fresh]
      exact Block.length_toBytes tag
    have remaining : begun.remaining = capacity := by rw [fresh]
    have limited : w'.maxLength = Frame.effectiveLength limit := by rw [length, fresh]
    rw [empty, List.nil_append, List.length_append, tagBytes, Frame.length_bytesFrom] at bytes
    rw [empty, remaining, bytes, List.length_nil] at charged
    have cost : w'.tagCost = 0 := by simp [tagCost, sent]
    have left : w'.remaining - (0 + 2 * Frame.overhead) =
        capacity - (Tag.length + Frame.totalCost frames + 2 * Frame.overhead) := by omega
    rw [payloadBudget, Frame.roomAfter, maxPayload, limited, cost, left]

/-! ## What the device holds -/

section Held

variable {held : δ → Bytes} {first : Bytes}

theorem write_since (keeps : sink.Keeps held) {w : FrameWriter δ}
    (since : Sink.Since held first w.outlet) (payload : Bytes) (final : Bool) :
    Sink.Since held first (w.write sink payload final).2.outlet := by
  have offered := keeps.writeAll (w.nextBytes payload final) since
  simp only [write]
  split
  · exact since
  · split
    next all => rw [all] at offered; exact offered
    next all => rw [all] at offered; exact offered

theorem writeEach_since (keeps : sink.Keeps held) (frames : List Frame.Marked) {w : FrameWriter δ}
    (since : Sink.Since held first w.outlet) :
    Sink.Since held first (w.writeEach sink frames).2.outlet := by
  induction frames generalizing w with
  | nil => exact since
  | cons frame frames ih =>
      obtain ⟨payload, final⟩ := frame
      have next := write_since keeps since payload final
      simp only [writeEach]
      split
      next written =>
        rw [written] at next
        exact ih next
      next => exact next

theorem flush_since (keeps : sink.Keeps held) {w : FrameWriter δ}
    (since : Sink.Since held first w.outlet) : Sink.Since held first (w.flush sink).2.outlet := by
  have flushed := keeps.flushAll since
  simp only [flush]
  split
  next done => rw [done] at flushed; exact flushed
  next done => rw [done] at flushed; exact flushed

theorem finish_since (keeps : sink.Keeps held) {w : FrameWriter δ}
    (since : Sink.Since held first w.outlet) : Sink.Since held first (w.finish sink).2.outlet := by
  have last := write_since keeps since [] true
  simp only [finish]
  split
  · exact since
  · split
    · exact flush_since keeps since
    · split
      next written =>
        rw [written] at last
        exact flush_since keeps last
      next failed =>
        rw [failed] at last
        exact last

end Held

end FrameWriter

end Courier
