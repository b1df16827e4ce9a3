import Courier.Proofs.Connection.Sealing
import Courier.Proofs.Connection.Writing

/-! # What a writer accounts for

However a frame writer is called, and whatever its sink does, the sink holds the
tag and the frames that were written whole, under consecutive numbers. Only if
the sink failed inside a frame, a part of that frame follows. What was written
and what is left make up the capacity. A refused call changes nothing, a failed
one ends the writer, and nothing follows a final frame or a closed connection.
-/

namespace Courier

/-- The fault refuses a frame and leaves the writer as it was. -/
def ConnectionFault.isRefusal : ConnectionFault → Bool
  | payloadTooLarge _ _ | capacityExceeded _ _ | alreadyFinished | frameCounterExhausted => true
  | crypto _ | device _ | invalidFrameLength _ | truncated | authenticationFailed
  | malformedHeader | faulted => false

theorem ConnectionFault.isRefusal_ofDevice (fault : DeviceFault) :
    (ofDevice fault).isRefusal = false := by
  simp only [ofDevice]
  split <;> rfl

/-- A connection that has got as far as these frames. Without frames it is empty. -/
def Frame.opening (tag : Tag) (key : Secret) : List Marked → Bytes
  | [] => []
  | frame :: frames => tag.toBytes ++ bytesFrom key 0 (frame :: frames)

theorem Frame.bytesFrom_append (key : Secret) (number : Nat) (frames more : List Marked) :
    bytesFrom key number (frames ++ more) =
      bytesFrom key number frames ++ bytesFrom key (number + frames.length) more := by
  induction frames generalizing number with
  | nil => rfl
  | cons frame frames ih =>
      obtain ⟨payload, final⟩ := frame
      simp [bytesFrom, ih, Nat.add_assoc, Nat.add_comm 1]

/-- One more frame adds its bytes, and the tag if it is the first. -/
theorem Frame.opening_append (tag : Tag) (key : Secret) (frames : List Marked) (payload : Bytes)
    (final : Bool) :
    opening tag key (frames ++ [(payload, final)]) = opening tag key frames ++
      ((if frames = [] then tag.toBytes else []) ++ toBytes key frames.length payload final) := by
  have single : ∀ number, bytesFrom key number [(payload, final)] =
      toBytes key number payload final := fun number => List.append_nil _
  cases frames with
  | nil => rw [List.nil_append, opening, opening, single, if_pos rfl, List.nil_append]; rfl
  | cons frame frames =>
      rw [List.cons_append, opening, opening, ← List.cons_append, bytesFrom_append, single,
        if_neg (List.cons_ne_nil _ _), List.nil_append, List.append_assoc, Nat.zero_add]

namespace FrameWriter

variable {δ : Type} {sink : Sink δ}

/-! ## What a call does -/

/-- What a call answers. -/
def Call.answer (sink : Sink δ) : Call → FrameWriter δ → Except ConnectionFault Unit
  | write payload final, w => (w.write sink payload final).1
  | finish, w => (w.finish sink).1

/-- The frame that a call offers to the sink; none if it is refused or if there is nothing to
    close. -/
def Call.frame? : Call → FrameWriter δ → Option Frame.Marked
  | write payload final, w =>
      if (w.refusal? payload.length).isNone then some (payload, final) else none
  | finish, w =>
      if w.finished || w.pendingTag.isSome || (w.refusal? 0).isSome then none else some ([], true)

/-- The sink takes the frame whole. -/
def takes (sink : Sink δ) (w : FrameWriter δ) (frame : Frame.Marked) : Bool :=
  (w.write sink frame.1 frame.2).1.isOk

/-- A writer, the frames that it has written whole, and the frame in which the sink failed. -/
structure Account (δ : Type) where
  writer : FrameWriter δ
  frames : List Frame.Marked := []
  torn : Option Frame.Marked := none

def Account.call (sink : Sink δ) (a : Account δ) (call : Call) : Account δ where
  writer := call.run sink a.writer
  frames := a.frames ++ ((call.frame? a.writer).filter (a.writer.takes sink)).toList
  torn := a.torn.or ((call.frame? a.writer).filter fun frame => !a.writer.takes sink frame)

/-- Calls one after the other. -/
def Account.run (sink : Sink δ) (a : Account δ) (calls : List Call) : Account δ :=
  calls.foldl (·.call sink) a

/-- The bytes that the sink holds. -/
def Account.taken (a : Account δ) : Bytes :=
  a.writer.outlet.taken

/-! ## One frame -/

/-- How writing a frame can end: refused with nothing changed, broken off inside the frame, or with
    the frame taken whole. -/
theorem write_cases (sink : Sink δ) (w : FrameWriter δ) (payload : Bytes) (final : Bool) :
    (∃ fault, w.refusal? payload.length = some fault ∧
        w.write sink payload final = (.error fault, w)) ∨
      (∃ fault outlet', w.refusal? payload.length = none ∧
        sink.writeAll (w.nextBytes payload final) w.outlet = (.error fault, outlet') ∧
        w.write sink payload final =
          (.error (.ofDevice fault), { w with outlet := outlet', faulted := true })) ∨
      ∃ outlet', w.refusal? payload.length = none ∧
        sink.writeAll (w.nextBytes payload final) w.outlet = (.ok (), outlet') ∧
        w.write sink payload final = (.ok (), w.advanced outlet' payload.length final) := by
  cases refused : w.refusal? payload.length with
  | some fault => exact .inl ⟨fault, rfl, by simp only [write, refused]⟩
  | none =>
      rcases offered : sink.writeAll (w.nextBytes payload final) w.outlet with
        ⟨fault | done, outlet'⟩
      · exact .inr (.inl ⟨fault, outlet', rfl, rfl, by simp only [write, refused, offered]⟩)
      · exact .inr (.inr ⟨outlet', rfl, rfl, by simp only [write, refused, offered, advanced]⟩)

section

variable {a : Account δ} {payload : Bytes} {final : Bool} {w : FrameWriter δ}
  {fault : ConnectionFault}

theorem call_write_of_refused (refused : a.writer.refusal? payload.length = some fault) :
    a.call sink (.write payload final) = a := by
  simp [Account.call, Call.run, Call.frame?, refused, write]

theorem call_write_of_error (fits : a.writer.refusal? payload.length = none)
    (failed : a.writer.write sink payload final = (.error fault, w)) :
    a.call sink (.write payload final) =
      { a with writer := w, torn := a.torn.or (some (payload, final)) } := by
  simp [Account.call, Call.run, Call.frame?, fits, takes, failed, Except.isOk, Except.toBool,
    Option.filter]

theorem call_write_of_ok (fits : a.writer.refusal? payload.length = none)
    (wrote : a.writer.write sink payload final = (.ok (), w)) :
    a.call sink (.write payload final) =
      { a with writer := w, frames := a.frames ++ [(payload, final)] } := by
  simp [Account.call, Call.run, Call.frame?, fits, takes, wrote, Except.isOk, Except.toBool,
    Option.filter]

end

theorem isRefusal_of_refusal? {w : FrameWriter δ} {length : Nat} {fault : ConnectionFault}
    (sound : w.faulted = false) (refused : w.refusal? length = some fault) :
    fault.isRefusal = true := by
  simp only [refusal?, sound, Bool.false_eq_true, if_false] at refused
  repeat' split at refused
  all_goals cases refused
  all_goals rfl

/-- What a writer owes to the frames that it has written. -/
structure Accounts (tag : Tag) (key : Secret) (capacity : Nat) (a : Account δ) : Prop where
  keyed : a.writer.key = key
  whole : a.torn = none → a.taken = Frame.opening tag key a.frames
  part : ∀ frame, a.torn = some frame → a.writer.faulted = true ∧ ∃ front rest, rest ≠ [] ∧
    Frame.opening tag key (a.frames ++ [frame]) = Frame.opening tag key a.frames ++ front ++ rest ∧
    a.taken = Frame.opening tag key a.frames ++ front
  count : a.writer.frames = a.frames.length
  pending : a.writer.pendingTag = if a.frames = [] then some tag else none
  written : a.writer.written = (Frame.opening tag key a.frames).length
  charged : a.writer.written + a.writer.remaining = capacity
  bounded : a.taken.length ≤ capacity
  last : ∀ frame ∈ a.frames.dropLast, frame.2 = false
  finished : (∃ frame ∈ a.frames, frame.2 = true) → a.writer.finished = true

variable {tag : Tag} {key : Secret} {capacity : Nat} {a : Account δ}

theorem Accounts.begins {device : δ} {limit stream : Nat} {secret : Secret} {role : Role}
    {begun : FrameWriter δ} (made : make device capacity limit secret stream role = .ok begun) :
    ∃ tag key, Tag.make secret stream role = .ok tag ∧
      secret.derive (.frameKey role stream) = .ok key ∧
      Accounts tag key capacity { writer := begun } := by
  obtain ⟨-, tag, key, tagged, derived, rfl⟩ := (make_eq_ok_iff ..).mp made
  refine ⟨tag, key, tagged, derived, ?_⟩
  constructor <;> simp [Frame.opening, Account.taken, Outlet.taken]

/-- The bytes that are offered to the sink are those by which the connection grows. -/
theorem Accounts.opening_append (accounts : Accounts tag key capacity a) (payload : Bytes)
    (final : Bool) : Frame.opening tag key (a.frames ++ [(payload, final)]) =
      Frame.opening tag key a.frames ++ a.writer.nextBytes payload final := by
  rw [Frame.opening_append, nextBytes, accounts.pending, accounts.keyed, accounts.count]
  split <;> rfl

/-- Before anything is torn, the sink holds the frames. -/
theorem Accounts.whole_of_sound (accounts : Accounts tag key capacity a)
    (sound : a.writer.faulted = false) :
    a.torn = none ∧ a.writer.outlet.taken = Frame.opening tag key a.frames := by
  have untorn : a.torn = none := by
    cases torn : a.torn with
    | none => rfl
    | some frame => rw [(accounts.part frame torn).1] at sound; cases sound
  exact ⟨untorn, accounts.whole untorn⟩

section

variable {sink : Sink δ} {payload : Bytes} {final : Bool} {outlet' : Outlet δ}

/-- A frame that is broken off is the torn one. -/
theorem Accounts.write_of_error (accounts : Accounts tag key capacity a) {fault : DeviceFault}
    (fits : a.writer.refusal? payload.length = none)
    (offered : sink.writeAll (a.writer.nextBytes payload final) a.writer.outlet =
      (.error fault, outlet')) :
    Accounts tag key capacity
      { a with
        writer := { a.writer with outlet := outlet', faulted := true }
        torn := some (payload, final) } := by
  obtain ⟨sound, -, -, -, enough⟩ := (refusal?_eq_none_iff a.writer _).mp fits
  obtain ⟨untorn, before⟩ := accounts.whole_of_sound sound
  obtain ⟨front, rest, split, some, taken⟩ := Sink.writeAll_front_of_error offered
  rw [before] at taken
  have cost := congrArg List.length split
  rw [length_nextBytes, List.length_append] at cost
  exact { accounts with
    whole := fun none => nomatch none
    part := by
      rintro _ ⟨⟩
      refine ⟨rfl, front, rest, some, ?_, taken⟩
      rw [accounts.opening_append, split, List.append_assoc]
    bounded := by
      have charged := accounts.charged
      have written := accounts.written
      have length := congrArg List.length taken
      rw [List.length_append] at length
      simp only [Account.taken]
      omega }

/-- A frame that is taken whole is one of the frames. -/
theorem Accounts.write_of_ok (accounts : Accounts tag key capacity a)
    (fits : a.writer.refusal? payload.length = none)
    (offered : sink.writeAll (a.writer.nextBytes payload final) a.writer.outlet =
      (.ok (), outlet')) :
    Accounts tag key capacity
      { a with
        writer := a.writer.advanced outlet' payload.length final
        frames := a.frames ++ [(payload, final)] } := by
  obtain ⟨sound, unfinished, -, -, enough⟩ := (refusal?_eq_none_iff a.writer _).mp fits
  obtain ⟨untorn, before⟩ := accounts.whole_of_sound sound
  have taken := Sink.writeAll_taken offered
  rw [before, ← accounts.opening_append] at taken
  have grown := congrArg List.length (accounts.opening_append payload final)
  rw [List.length_append, length_nextBytes] at grown
  have charged := accounts.charged
  have written := accounts.written
  have open_ : ∀ frame ∈ a.frames, frame.2 = false := by
    intro frame member
    cases its : frame.2 with
    | false => rfl
    | true =>
        rw [accounts.finished ⟨frame, member, its⟩] at unfinished
        cases unfinished
  constructor
  case keyed => exact accounts.keyed
  case whole => exact fun _ => taken
  case part =>
    rintro frame torn
    rw [untorn] at torn
    cases torn
  case count => simp [advanced, accounts.count]
  case pending => simp [advanced]
  case written =>
    simp only [advanced]
    omega
  case charged =>
    simp only [advanced]
    omega
  case bounded =>
    simp only [Account.taken, advanced, taken]
    omega
  case last =>
    intro frame member
    rw [List.dropLast_concat] at member
    exact open_ frame member
  case finished =>
    rintro ⟨frame, member, its⟩
    rcases List.mem_append.mp member with earlier | now
    · rw [open_ frame earlier] at its
      cases its
    · obtain rfl := List.mem_singleton.mp now
      exact its

end

/-- A frame that is written whole, broken off or refused goes to the frames, to the torn one, or
    nowhere. -/
theorem Accounts.write (accounts : Accounts tag key capacity a) (sink : Sink δ) (payload : Bytes)
    (final : Bool) : Accounts tag key capacity (a.call sink (.write payload final)) := by
  rcases write_cases sink a.writer payload final with ⟨fault, refused, wrote⟩ |
    ⟨fault, outlet', fits, offered, wrote⟩ | ⟨outlet', fits, offered, wrote⟩
  · rwa [call_write_of_refused refused]
  · obtain ⟨sound, -⟩ := (refusal?_eq_none_iff a.writer _).mp fits
    rw [call_write_of_error fits wrote, (accounts.whole_of_sound sound).1]
    exact accounts.write_of_error fits offered
  · rw [call_write_of_ok fits wrote]
    exact accounts.write_of_ok fits offered

/-! ## Closing -/

/-- Flushing puts nothing out. The writer is finished then, and faulted if it was or if the sink
    fails. -/
theorem flush_cases (sink : Sink δ) (w : FrameWriter δ) :
    ∃ outlet' failed, outlet'.taken = w.outlet.taken ∧
      (w.flush sink).2 =
        { w with outlet := outlet', finished := true, faulted := w.faulted || failed } ∧
      (failed = false ∧ (w.flush sink).1 = .ok () ∨
        failed = true ∧ ∃ fault, (w.flush sink).1 = .error (.ofDevice fault)) := by
  have taken : ∀ {result outlet'}, sink.flushAll w.outlet = (result, outlet') →
      outlet'.taken = w.outlet.taken := by
    intro result outlet' flushed
    simp only [Sink.flushAll, Prod.mk.injEq] at flushed
    rw [← flushed.2]
    rfl
  rcases flushed : sink.flushAll w.outlet with ⟨fault | done, outlet'⟩
  · refine ⟨outlet', true, taken flushed, ?_, .inr ⟨rfl, fault, ?_⟩⟩
    · simp only [flush, flushed, Bool.or_true]
    · simp only [flush, flushed]
  · refine ⟨outlet', false, taken flushed, ?_, .inl ⟨rfl, ?_⟩⟩
    · simp only [flush, flushed, Bool.or_false]
    · simp only [flush, flushed]

theorem Accounts.flush (accounts : Accounts tag key capacity a) (sink : Sink δ) :
    Accounts tag key capacity { a with writer := (a.writer.flush sink).2 } := by
  obtain ⟨outlet', failed, taken, flushed, -⟩ := flush_cases sink a.writer
  rw [flushed]
  exact { accounts with
    whole := fun untorn => taken.trans (accounts.whole untorn)
    part := fun frame torn => by
      obtain ⟨faulted, front, rest, some, split, part⟩ := accounts.part frame torn
      exact ⟨by simp [faulted], front, rest, some, split, taken.trans part⟩
    bounded := by
      have bounded := accounts.bounded
      rwa [Account.taken, ← taken] at bounded
    finished := fun _ => rfl }

/-- A faulted writer refuses every call and stays as it is. -/
theorem call_of_faulted (faulted : a.writer.faulted = true) (sink : Sink δ) (call : Call) :
    call.answer sink a.writer = .error .faulted ∧ a.call sink call = a := by
  have refused := refusal?_of_faulted faulted
  cases call with
  | write payload final =>
      exact ⟨by simp only [Call.answer, FrameWriter.write, refused],
        call_write_of_refused (refused _)⟩
  | finish =>
      have closed : a.writer.finish sink = (.error .faulted, a.writer) := by
        simp [FrameWriter.finish, faulted]
      exact ⟨by rw [Call.answer, closed],
        by simp [Account.call, Call.run, Call.frame?, refused, closed]⟩

/-- Closing a sound writer: if some frames are written and none of them is final, an empty final
    frame comes first, and the sink is flushed unless that fails. -/
theorem call_finish_cases (sink : Sink δ) (sound : a.writer.faulted = false) :
    ((a.writer.finished || a.writer.pendingTag.isSome) = true ∧
        Call.finish.answer sink a.writer = (a.writer.flush sink).1 ∧
        a.call sink .finish = { a with writer := (a.writer.flush sink).2 }) ∨
      (∃ fault, (Call.write [] true).answer sink a.writer = .error fault ∧
        Call.finish.answer sink a.writer = .error fault ∧
        a.call sink .finish = a.call sink (.write [] true)) ∨
      ((Call.write [] true).answer sink a.writer = .ok () ∧
        Call.finish.answer sink a.writer =
          ((a.call sink (.write [] true)).writer.flush sink).1 ∧
        a.call sink .finish = { a.call sink (.write [] true) with
          writer := ((a.call sink (.write [] true)).writer.flush sink).2 }) := by
  by_cases closed : (a.writer.finished || a.writer.pendingTag.isSome) = true
  · left
    have flushed : a.writer.finish sink = a.writer.flush sink := by
      rw [FrameWriter.finish, sound, if_neg Bool.false_ne_true, if_pos closed]
    have none : Call.finish.frame? a.writer = none := by
      rw [Call.frame?, closed, Bool.true_or, if_pos rfl]
    refine ⟨closed, by rw [Call.answer, flushed], ?_⟩
    simp [Account.call, none, Call.run, flushed]
  · right
    have offered : Call.finish.frame? a.writer = (Call.write [] true).frame? a.writer := by
      rw [Bool.not_eq_true] at closed
      rw [Call.frame?, Call.frame?, closed, Bool.false_or, List.length_nil]
      cases a.writer.refusal? 0 <;> rfl
    have finish_eq : a.writer.finish sink = _ :=
      (if_neg (by rw [sound]; exact Bool.false_ne_true)).trans (if_neg closed)
    rcases wrote : a.writer.write sink [] true with ⟨fault | done, w⟩
    · left
      rw [wrote] at finish_eq
      refine ⟨fault, by rw [Call.answer, wrote], by rw [Call.answer, finish_eq], ?_⟩
      simp only [Account.call, offered, Call.run, finish_eq, wrote]
    · right
      rw [wrote] at finish_eq
      refine ⟨by rw [Call.answer, wrote], ?_, ?_⟩
      · rw [Call.answer, finish_eq]
        simp only [Account.call, Call.run, wrote]
      · simp only [Account.call, offered, Call.run, finish_eq, wrote]

/-! ## Every call -/

theorem Accounts.call (accounts : Accounts tag key capacity a) (sink : Sink δ) (call : Call) :
    Accounts tag key capacity (a.call sink call) := by
  cases call with
  | write payload final => exact accounts.write sink payload final
  | finish =>
      cases sound : a.writer.faulted with
      | true =>
          rw [(call_of_faulted sound sink .finish).2]
          exact accounts
      | false =>
          rcases call_finish_cases sink sound with
            ⟨-, -, closed⟩ | ⟨fault, -, -, closed⟩ | ⟨-, -, closed⟩
          · rw [closed]
            exact accounts.flush sink
          · rw [closed]
            exact accounts.write sink [] true
          · rw [closed]
            exact (accounts.write sink [] true).flush sink

theorem Accounts.run (accounts : Accounts tag key capacity a) (sink : Sink δ)
    (calls : List Call) : Accounts tag key capacity (a.run sink calls) := by
  induction calls generalizing a with
  | nil => exact accounts
  | cons call calls ih => exact ih (accounts.call sink call)

/-! ## Answers -/

theorem call_write_of_fault {payload : Bytes} {final : Bool} {fault : ConnectionFault}
    (failed : (Call.write payload final).answer sink a.writer = .error fault) :
    if fault.isRefusal then a.call sink (.write payload final) = a
    else (a.call sink (.write payload final)).writer.faulted = true := by
  rw [Call.answer] at failed
  rcases write_cases sink a.writer payload final with ⟨refusal, refused, wrote⟩ |
    ⟨broken, outlet', -, -, wrote⟩ | ⟨outlet', -, -, wrote⟩ <;> rw [wrote] at failed
  · obtain rfl := Except.error.inj failed
    rw [call_write_of_refused refused]
    cases sound : a.writer.faulted with
    | false => rw [isRefusal_of_refusal? sound refused, if_pos rfl]
    | true =>
        rw [refusal?_of_faulted sound] at refused
        obtain rfl := Option.some.inj refused
        exact rfl
  · obtain rfl := Except.error.inj failed
    rw [ConnectionFault.isRefusal_ofDevice, if_neg Bool.false_ne_true, Account.call, Call.run,
      wrote]
  · cases failed

/-- Flushing is never refused. -/
theorem flush_of_fault {w : FrameWriter δ} {fault : ConnectionFault}
    (failed : (w.flush sink).1 = .error fault) :
    fault.isRefusal = false ∧ (w.flush sink).2.faulted = true := by
  obtain ⟨outlet', failing, -, flushed, ⟨-, done⟩ | ⟨rfl, broken, answer⟩⟩ := flush_cases sink w
  · rw [done] at failed
    cases failed
  · rw [answer] at failed
    obtain rfl := Except.error.inj failed
    exact ⟨ConnectionFault.isRefusal_ofDevice broken, by rw [flushed, Bool.or_true]⟩

/-- A call that answers with a fault is refused and changes nothing, or ends the writer. -/
theorem call_of_fault {call : Call} {fault : ConnectionFault}
    (failed : call.answer sink a.writer = .error fault) :
    if fault.isRefusal then a.call sink call = a else (a.call sink call).writer.faulted = true := by
  cases call with
  | write payload final => exact call_write_of_fault failed
  | finish =>
      cases sound : a.writer.faulted with
      | true =>
          obtain ⟨answer, same⟩ := call_of_faulted sound sink .finish
          rw [answer] at failed
          obtain rfl := Except.error.inj failed
          rw [same]
          exact sound
      | false =>
          rcases call_finish_cases sink sound with ⟨-, answer, closed⟩ |
            ⟨first, refused, answer, closed⟩ | ⟨-, answer, closed⟩ <;> rw [answer] at failed
          · obtain ⟨refusal, faulted⟩ := flush_of_fault failed
            rw [refusal, if_neg Bool.false_ne_true, closed]
            exact faulted
          · obtain rfl := Except.error.inj failed
            rw [closed]
            exact call_write_of_fault refused
          · obtain ⟨refusal, faulted⟩ := flush_of_fault failed
            rw [refusal, if_neg Bool.false_ne_true, closed]
            exact faulted

/-- Closing leaves a finished writer if it answers that all is well. -/
theorem finished_of_finish (closed : Call.finish.answer sink a.writer = .ok ()) :
    (a.call sink .finish).writer.finished = true := by
  have of_flush : ∀ w : FrameWriter δ, (w.flush sink).2.finished = true := by
    intro w
    obtain ⟨outlet', failed, -, flushed, -⟩ := flush_cases sink w
    rw [flushed]
  cases sound : a.writer.faulted with
  | true =>
      rw [(call_of_faulted sound sink .finish).1] at closed
      cases closed
  | false =>
      rcases call_finish_cases sink sound with
        ⟨-, -, same⟩ | ⟨fault, -, answer, -⟩ | ⟨-, -, same⟩
      · rw [same]
        exact of_flush _
      · rw [answer] at closed
        cases closed
      · rw [same]
        exact of_flush _

/-- A finished writer stays so, and writes nothing. -/
theorem call_of_finished (finished : a.writer.finished = true) (sink : Sink δ) (call : Call) :
    (a.call sink call).writer.finished = true ∧ (a.call sink call).frames = a.frames ∧
      (a.call sink call).torn = a.torn ∧ (a.call sink call).taken = a.taken := by
  cases sound : a.writer.faulted with
  | true =>
      rw [(call_of_faulted sound sink call).2]
      exact ⟨finished, rfl, rfl, rfl⟩
  | false =>
      cases call with
      | write payload final =>
          have refused : a.writer.refusal? payload.length = some .alreadyFinished := by
            rw [refusal?, sound, if_neg Bool.false_ne_true, if_pos finished]
          rw [call_write_of_refused refused]
          exact ⟨finished, rfl, rfl, rfl⟩
      | finish =>
          have closed : a.call sink .finish = { a with writer := (a.writer.flush sink).2 } := by
            simp [Account.call, Call.frame?, Call.run, FrameWriter.finish, sound, finished]
          obtain ⟨outlet', failed, taken, flushed, -⟩ := flush_cases sink a.writer
          rw [closed, flushed]
          exact ⟨rfl, rfl, rfl, taken⟩

theorem run_of_finished (finished : a.writer.finished = true) (sink : Sink δ)
    (calls : List Call) : (a.run sink calls).frames = a.frames ∧ (a.run sink calls).torn = a.torn ∧
      (a.run sink calls).taken = a.taken := by
  induction calls generalizing a with
  | nil => exact ⟨rfl, rfl, rfl⟩
  | cons call calls ih =>
      obtain ⟨still, frames, torn, taken⟩ := call_of_finished finished sink call
      obtain ⟨frames', torn', taken'⟩ := ih still
      exact ⟨frames'.trans frames, torn'.trans torn, taken'.trans taken⟩

/-- What holds after any calls to a writer with any sink. The sink holds the tag and the frames that
    were written whole, and after a failed write possibly a proper part of one more frame. Written
    and remaining bytes make up the capacity, which is never passed. A refusal changes nothing; any
    other fault is the last thing that happens. After a final frame, and after closing, nothing is
    written. -/
theorem accounts_of_calls {device : δ} {limit stream : Nat} {secret : Secret} {role : Role}
    {begun : FrameWriter δ} (made : make device capacity limit secret stream role = .ok begun)
    (sink : Sink δ) (calls : List Call) :
    let a := Account.run sink { writer := begun } calls
    ∃ tag key, Tag.make secret stream role = .ok tag ∧
      secret.derive (.frameKey role stream) = .ok key ∧
      (a.torn = none → a.taken = Frame.opening tag key a.frames) ∧
      (∀ frame, a.torn = some frame → a.writer.faulted = true ∧ ∃ front rest, rest ≠ [] ∧
        Frame.opening tag key (a.frames ++ [frame]) =
          Frame.opening tag key a.frames ++ front ++ rest ∧
        a.taken = Frame.opening tag key a.frames ++ front) ∧
      a.writer.frames = a.frames.length ∧
      a.writer.written + a.writer.remaining = capacity ∧
      (a.writer.faulted = false → a.writer.written = a.taken.length) ∧
      a.taken.length ≤ capacity ∧
      (∀ call fault, call.answer sink a.writer = .error fault →
        if fault.isRefusal then a.call sink call = a
        else (a.call sink call).writer.faulted = true) ∧
      (a.writer.faulted = true → ∀ call,
        call.answer sink a.writer = .error .faulted ∧ a.call sink call = a) ∧
      (∀ frame ∈ a.frames.dropLast, frame.2 = false) ∧
      ((∃ frame ∈ a.frames, frame.2 = true) → a.writer.finished = true) ∧
      (Call.finish.answer sink a.writer = .ok () →
        (a.call sink .finish).writer.finished = true) ∧
      (a.writer.finished = true → ∀ more, (a.run sink more).frames = a.frames ∧
        (a.run sink more).torn = a.torn ∧ (a.run sink more).taken = a.taken) := by
  intro a
  obtain ⟨tag, key, tagged, derived, begins⟩ := Accounts.begins made
  have accounts : Accounts tag key capacity a := begins.run sink calls
  have sound_length : a.writer.faulted = false → a.writer.written = a.taken.length := by
    intro sound
    cases torn : a.torn with
    | none => rw [accounts.whole torn, accounts.written]
    | some frame =>
        rw [(accounts.part frame torn).1] at sound
        cases sound
  exact ⟨tag, key, tagged, derived, accounts.whole, accounts.part, accounts.count, accounts.charged,
    sound_length, accounts.bounded, fun _ _ failed => call_of_fault failed,
    fun faulted call => call_of_faulted faulted sink call, accounts.last, accounts.finished,
    finished_of_finish, fun finished more => run_of_finished finished sink more⟩

/-- The sink takes one piece whole and then breaks, inside the second frame. -/
theorem accounts_of_calls_broken_off :
    let sink : Sink Bool :=
      { write := fun data sound =>
          if sound then (.ok data.length, false) else (.error ⟨.brokenPipe, "gone"⟩, false)
        flush := fun sound => (.ok (), sound) }
    ∃ begun, make true 150 100 (.repeated 5) 3 .alice = .ok begun ∧
      let a := Account.run sink { writer := begun } [.write [1, 2, 3] false, .write [4] true]
      a.frames = [([1, 2, 3], false)] ∧ a.torn = some ([4], true) ∧
        a.writer.faulted = true ∧ a.writer.written = 55 ∧ a.writer.remaining = 95 ∧
        ∀ call, call.answer sink a.writer = .error .faulted ∧ a.call sink call = a := by
  intro sink
  have tagKey : ∀ key, (Secret.repeated 5).derive (.tagKey .alice) = .ok key →
      key.isBlank = false :=
    Secret.usable_of_computed (by decide +kernel)
  obtain ⟨tag, tagged⟩ : ∃ tag, Tag.make (Secret.repeated 5) 3 .alice = .ok tag :=
    tag_make_of_usable (by decide) (by decide) tagKey
  obtain ⟨key, derived⟩ : ∃ key, (Secret.repeated 5).derive (.frameKey .alice 3) = .ok key :=
    Secret.derive_of_usable _ (by decide) (by decide)
  have made := (make_eq_ok_iff true 150 100 (.repeated 5) 3 .alice _).mpr
    ⟨by decide, tag, key, tagged, derived, rfl⟩
  refine ⟨_, made, ?_⟩
  intro a
  have whole : ∀ byte rest gathered, sink.writeAll (byte :: rest) ⟨true, gathered⟩ =
      (.ok (), ⟨false, gathered.add (byte :: rest)⟩) := by
    intro byte rest gathered
    simp [Sink.writeAll, Sink.offer, sink]
  have broken : ∀ byte rest gathered, sink.writeAll (byte :: rest) ⟨false, gathered⟩ =
      (.error ⟨.brokenPipe, "gone"⟩, ⟨false, gathered⟩) := by
    intro byte rest gathered
    simp [Sink.writeAll, Sink.offer, sink]
  have some : ∀ (w : FrameWriter Bool) payload final,
      ∃ byte rest, w.nextBytes payload final = byte :: rest := by
    intro w payload final
    refine List.exists_cons_of_ne_nil (List.ne_nil_of_length_pos ?_)
    rw [length_nextBytes, cost, Frame.overhead]
    omega
  let begun : FrameWriter Bool :=
    { outlet := { device := true }, key, pendingTag := Option.some tag, remaining := 150,
      maxLength := Frame.effectiveLength 100 }
  obtain ⟨byte, rest, offered⟩ := some begun [1, 2, 3] false
  let between := begun.advanced ⟨false, Gathered.empty.add (byte :: rest)⟩ 3 false
  have first : begun.write sink [1, 2, 3] false = (.ok (), between) :=
    (write_eq_ok_iff begun between _ _).mpr ⟨rfl, _, by rw [offered]; exact whole .., rfl⟩
  obtain ⟨byte', rest', offered'⟩ := some between [4] true
  have second : between.write sink [4] true =
      (.error (.device "gone"), { between with faulted := true }) := by
    have fits : between.refusal? [(4 : UInt8)].length = none := rfl
    have fails : sink.writeAll (between.nextBytes [4] true) between.outlet =
        (.error ⟨.brokenPipe, "gone"⟩, between.outlet) := by
      rw [offered']
      exact broken ..
    simp only [FrameWriter.write, fits, fails]
    rfl
  have ran : a =
      { writer := { between with faulted := true }
        frames := [([1, 2, 3], false)]
        torn := Option.some ([4], true) } := by
    have unrefused : begun.refusal? [(1 : UInt8), 2, 3].length = none := rfl
    have fits : between.refusal? [(4 : UInt8)].length = none := rfl
    have once : Account.call sink { writer := begun } (.write [1, 2, 3] false) =
        { writer := between, frames := [([1, 2, 3], false)] } :=
      call_write_of_ok unrefused first
    show Account.call sink (Account.call sink { writer := begun } _) _ = _
    rw [once]
    exact call_write_of_error fits second
  obtain ⟨-, -, -, -, -, -, -, -, -, -, -, beyond, -⟩ :=
    accounts_of_calls made sink [.write [1, 2, 3] false, .write [4] true]
  refine ⟨by rw [ran], by rw [ran], by rw [ran], by rw [ran]; rfl, by rw [ran]; rfl, beyond ?_⟩
  show a.writer.faulted = true
  rw [ran]

end FrameWriter

end Courier
