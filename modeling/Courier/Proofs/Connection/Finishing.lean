import Courier.Proofs.Connection.Accounting

/-! # Finished connections

A connection is finished once its final frame was written, or once it was closed.
Whatever calls led there and whatever its sink did, nothing is torn then: the
sink holds the tag and frames of which exactly the last is final, each of them
short enough, under numbers that there are. A connection without frames is empty.
-/

namespace Courier

namespace Frame

/-- Frames are complete if the last one is final and no other is. -/
theorem complete_of_last {frames : List Marked} {last : Marked}
    (others : ∀ frame ∈ frames.dropLast, frame.2 = false) (its : frames.getLast? = some last)
    (final : last.2 = true) : Complete frames := by
  induction frames with
  | nil => cases its
  | cons frame frames ih =>
      obtain ⟨payload, mark⟩ := frame
      cases frames with
      | nil =>
          obtain rfl := Option.some.inj its
          obtain rfl : mark = true := final
          exact .last payload
      | cons next frames =>
          rw [List.dropLast_cons_cons] at others
          obtain rfl : mark = false := others _ (List.mem_cons_self ..)
          rw [List.getLast?_cons_cons] at its
          exact .more payload (ih (fun frame member => others frame (.tail _ member)) its)

/-- A frame that others follow is not final. -/
theorem Complete.front_open {front later : List Marked} {next : Marked}
    (complete : Complete (front ++ next :: later)) : ∀ frame ∈ front, frame.2 = false := by
  induction front with
  | nil => exact fun _ member => nomatch member
  | cons frame front ih =>
      intro other member
      rw [List.cons_append] at complete
      generalize rest : front ++ next :: later = frames at complete
      cases complete with
      | last => simp at rest
      | more payload complete =>
          subst rest
          rcases List.mem_cons.mp member with rfl | member
          · rfl
          · exact ih complete other member

end Frame

namespace FrameWriter

variable {δ : Type} {sink : Sink δ} {tag : Tag} {key : Secret} {capacity limit : Nat}
  {a : Account δ}

/-- The frames keep to the limits of the writer, and once it is finished the last of them is final
    and none is torn. -/
structure Shaped (limit : Nat) (a : Account δ) : Prop where
  room : Frame.overhead ≤ limit
  limited : a.writer.maxLength = limit
  within : Frame.Within limit a.frames
  numbers : a.frames.length ≤ Frame.maxNumber + 1
  ended : a.writer.finished = true →
    a.torn = none ∧ ∀ frame, a.frames.getLast? = some frame → frame.2 = true

theorem Shaped.begins {device : δ} {capacity limit stream : Nat} {secret : Secret} {role : Role}
    {begun : FrameWriter δ} (made : make device capacity limit secret stream role = .ok begun) :
    Frame.overhead < Frame.effectiveLength limit ∧
      Shaped (Frame.effectiveLength limit) { writer := begun } := by
  obtain ⟨room, tag, key, -, -, rfl⟩ := (make_eq_ok_iff ..).mp made
  exact ⟨room, Nat.le_of_lt room, rfl, fun _ member => (List.not_mem_nil member).elim,
    Nat.zero_le _, fun never => nomatch never⟩

theorem Shaped.write (shaped : Shaped limit a) (accounts : Accounts tag key capacity a)
    (sink : Sink δ) (payload : Bytes) (final : Bool) :
    Shaped limit (a.call sink (.write payload final)) := by
  rcases write_cases sink a.writer payload final with ⟨fault, refused, wrote⟩ |
    ⟨fault, outlet', fits, offered, wrote⟩ | ⟨outlet', fits, offered, wrote⟩
  · rwa [call_write_of_refused refused]
  · obtain ⟨-, unfinished, -⟩ := (refusal?_eq_none_iff a.writer _).mp fits
    rw [call_write_of_error fits wrote]
    exact { shaped with
      ended := fun finished => by
        rw [show a.writer.finished = true from finished] at unfinished
        cases unfinished }
  · obtain ⟨sound, -, short, inRange, -⟩ := (refusal?_eq_none_iff a.writer _).mp fits
    rw [call_write_of_ok fits wrote]
    rw [maxPayload, shaped.limited] at short
    rw [accounts.count] at inRange
    have room := shaped.room
    constructor
    case room => exact room
    case limited => exact shaped.limited
    case within =>
      intro frame member
      rcases List.mem_append.mp member with earlier | now
      · exact shaped.within frame earlier
      · obtain rfl := List.mem_singleton.mp now
        simp only
        omega
    case numbers =>
      simp only [List.length_append, List.length_singleton]
      omega
    case ended =>
      refine fun finished => ⟨(accounts.whole_of_sound sound).1, fun frame last => ?_⟩
      rw [List.getLast?_concat, Option.some.injEq] at last
      rw [← last]
      exact finished

/-- Flushing finishes a writer that has nothing more to write. -/
theorem Shaped.flush (shaped : Shaped limit a)
    (ended : a.torn = none ∧ ∀ frame, a.frames.getLast? = some frame → frame.2 = true)
    (sink : Sink δ) : Shaped limit { a with writer := (a.writer.flush sink).2 } := by
  obtain ⟨outlet', failed, -, flushed, -⟩ := flush_cases sink a.writer
  rw [flushed]
  exact { shaped with ended := fun _ => ended }

theorem Shaped.finish (shaped : Shaped limit a) (accounts : Accounts tag key capacity a)
    (sink : Sink δ) : Shaped limit (a.call sink .finish) := by
  cases sound : a.writer.faulted with
  | true => rwa [(call_of_faulted sound sink .finish).2]
  | false =>
      rcases call_finish_cases sink sound with
        ⟨done, -, closed⟩ | ⟨fault, -, -, closed⟩ | ⟨wrote, -, closed⟩ <;> rw [closed]
      · refine shaped.flush ?_ sink
        rcases Bool.or_eq_true_iff.mp done with finished | pending
        · exact shaped.ended finished
        · have none : a.frames = [] := by
            by_contra some
            rw [accounts.pending, if_neg some] at pending
            cases pending
          refine ⟨(accounts.whole_of_sound sound).1, fun frame last => ?_⟩
          rw [none] at last
          cases last
      · exact shaped.write accounts sink [] true
      · have written := shaped.write accounts sink [] true
        refine written.flush (written.ended ?_) sink
        rw [Call.answer] at wrote
        rcases write_cases sink a.writer [] true with ⟨_, -, failed⟩ | ⟨_, _, -, -, failed⟩ |
          ⟨outlet', -, -, done⟩
        · rw [failed] at wrote
          cases wrote
        · rw [failed] at wrote
          cases wrote
        · rw [Account.call, Call.run, done]
          rfl

theorem Shaped.run (shaped : Shaped limit a) (accounts : Accounts tag key capacity a)
    (sink : Sink δ) (calls : List Call) : Shaped limit (a.run sink calls) := by
  induction calls generalizing a with
  | nil => exact shaped
  | cons call calls ih =>
      refine ih ?_ (accounts.call sink call)
      cases call with
      | write payload final => exact shaped.write accounts sink payload final
      | finish => exact shaped.finish accounts sink

/-- The sink of a finished writer holds a whole connection, or nothing. -/
theorem Shaped.whole (shaped : Shaped limit a) (accounts : Accounts tag key capacity a)
    (finished : a.writer.finished = true) (some : a.taken ≠ []) :
    Frame.Complete a.frames ∧ a.taken = tag.toBytes ++ Frame.bytesFrom key 0 a.frames := by
  obtain ⟨untorn, final⟩ := shaped.ended finished
  have held := accounts.whole untorn
  have last := accounts.last
  rw [held] at some ⊢
  cases frames : a.frames with
  | nil =>
      rw [frames] at some
      exact absurd rfl some
  | cons frame rest =>
      rw [frames] at final last
      exact ⟨Frame.complete_of_last last List.getLast?_cons (final _ List.getLast?_cons), rfl⟩

/-- Frames that were written one after the other are those of the calls that wrote them. -/
theorem run_of_writeEach {frames : List Frame.Marked} {w' : FrameWriter δ}
    (written : a.writer.writeEach sink frames = (.ok (), w')) :
    a.run sink (frames.map fun frame => .write frame.1 frame.2) =
      { a with writer := w', frames := a.frames ++ frames } := by
  induction frames generalizing a with
  | nil =>
      obtain rfl := (Prod.mk.inj written).2
      rw [List.append_nil]
      rfl
  | cons frame frames ih =>
      obtain ⟨payload, final⟩ := frame
      obtain ⟨between, one, others⟩ := (writeEach_cons_eq_ok_iff ..).mp written
      obtain ⟨fits, -⟩ := (write_eq_ok_iff ..).mp one
      have first := call_write_of_ok fits one
      rw [List.map_cons, Account.run, List.foldl_cons, first, ← Account.run, ih others,
        List.append_assoc]
      rfl

end FrameWriter

namespace Frame

variable {secret : Secret} {stream limit : Nat} {role : Role} {frames : List Marked} {bytes : Bytes}

/-- The bytes of a connection that some writer has finished with these frames, however it was called
    and whatever its sink did. -/
inductive Finished (secret : Secret) (stream : Nat) (role : Role) (limit : Nat) :
    List Marked → Bytes → Prop where
  | of_calls {δ : Type} {sink : Sink δ} {device : δ} {capacity : Nat} {begun : FrameWriter δ}
      (made : FrameWriter.make device capacity limit secret stream role = .ok begun)
      (calls : List FrameWriter.Call)
      (finished :
        (FrameWriter.Account.run sink { writer := begun } calls).writer.finished = true) :
      Finished secret stream role limit
        (FrameWriter.Account.run sink { writer := begun } calls).frames
        (FrameWriter.Account.run sink { writer := begun } calls).taken

/-- What the bytes of a finished connection are, unless there are none. -/
structure Spelled (secret : Secret) (stream : Nat) (role : Role) (limit : Nat)
    (frames : List Marked) (tag : Tag) (key : Secret) (bytes : Bytes) : Prop where
  tagged : Tag.make secret stream role = .ok tag
  keyed : secret.derive (.frameKey role stream) = .ok key
  room : overhead < effectiveLength limit
  complete : Complete frames
  numbers : frames.length ≤ maxNumber + 1
  within : Within (effectiveLength limit) frames
  bytes : bytes = tag.toBytes ++ bytesFrom key 0 frames

theorem Finished.spelled (finished : Finished secret stream role limit frames bytes)
    (some : bytes ≠ []) : ∃ tag key, Spelled secret stream role limit frames tag key bytes := by
  obtain @⟨δ, sink, device, capacity, begun, made, calls, finished⟩ := finished
  obtain ⟨tag, key, tagged, keyed, begins⟩ := FrameWriter.Accounts.begins made
  obtain ⟨room, shapes⟩ := FrameWriter.Shaped.begins made
  have shaped := shapes.run begins sink calls
  obtain ⟨complete, spelled⟩ := shaped.whole (begins.run sink calls) finished some
  exact ⟨tag, key, tagged, keyed, room, complete, shaped.numbers, shaped.within, spelled⟩

end Frame

end Courier
