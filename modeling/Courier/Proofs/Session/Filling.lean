import Courier.Session.Send
import Mathlib.Logic.Relation

/-! # The moves of filling a connection

However many records a connection takes, filling it is a chain of moves of three
kinds: nothing of one kind is due, a record is written, or a record that does
not fit is given back. A filling that fails makes such moves up to one last step
that went wrong. What each move preserves therefore holds after any filling,
for every source of records and every sink. A session runs in one of six ways,
and fills a connection in two of them.
-/

namespace Courier.Session

namespace Filling

variable {σ δ : Type}

/-- A source is asked for one record of some kind, of at most `budget` bytes where it can tell. -/
inductive Asks (source : RecordSource σ) (contact : ContactId) (budget : Nat) (mailbox : σ)
    (answer : Except MailboxFault (Option Record)) (mailbox' : σ) : Prop where
  | transportUpdate {given : Except MailboxFault (Option TransportUpdate)}
      (asked : source.transportUpdate contact mailbox = (given, mailbox'))
      (same : answer = given.map (·.map Record.transportUpdate))
  | subscriptionUpdate {given : Except MailboxFault (Option SubscriptionUpdate)}
      (asked : source.subscriptionUpdate contact mailbox = (given, mailbox'))
      (same : answer = given.map (·.map Record.subscriptionUpdate))
  | ack {given : Except MailboxFault (Option Ack)}
      (asked : source.ack contact budget mailbox = (given, mailbox'))
      (same : answer = given.map (·.map Record.ack))
  | batch {given : Except MailboxFault (Option Batch)}
      (asked : source.batch contact budget mailbox = (given, mailbox'))
      (same : answer = given.map (·.map Record.batch))

variable (source : RecordSource σ) (sink : Sink δ) (contact : ContactId)

/-- One move of a filling that goes well. -/
inductive Move : Filling σ δ → Filling σ δ → Prop where
  | idle {f : Filling σ δ} {m : σ}
      (asked : Asks source contact f.frames.payloadBudget f.mailbox (.ok none) m) :
      Move f { f with mailbox := m }
  | wrote {f : Filling σ δ} {record : Record} {m : σ} {frames : FrameWriter δ}
      (asked : Asks source contact f.frames.payloadBudget f.mailbox (.ok (some record)) m)
      (fits : record.encode.length ≤ f.frames.payloadBudget)
      (written : f.frames.write sink record.encode false = (.ok (), frames)) :
      Move f { mailbox := m, frames, taken := f.taken ++ [record] }
  | gaveBack {f : Filling σ δ} {record : Record} {m m' : σ}
      (asked : Asks source contact f.frames.payloadBudget f.mailbox (.ok (some record)) m)
      (large : f.frames.payloadBudget < record.encode.length)
      (restored : source.restore contact [record] m = (.ok (), m')) :
      Move f { f with mailbox := m' }

/-- The step that ends a filling that goes wrong. -/
inductive Fails : Filling σ δ → SessionFault → Filling σ δ → Prop where
  | refused {f : Filling σ δ} {m : σ} {fault : MailboxFault}
      (asked : Asks source contact f.frames.payloadBudget f.mailbox (.error fault) m) :
      Fails f (.mailbox fault) { f with mailbox := m }
  | notRestored {f : Filling σ δ} {record : Record} {m m' : σ} {fault : MailboxFault}
      (asked : Asks source contact f.frames.payloadBudget f.mailbox (.ok (some record)) m)
      (large : f.frames.payloadBudget < record.encode.length)
      (restored : source.restore contact [record] m = (.error fault, m')) :
      Fails f (.mailbox fault) { f with mailbox := m' }
  | notWritten {f : Filling σ δ} {record : Record} {m : σ} {frames : FrameWriter δ}
      {fault : ConnectionFault}
      (asked : Asks source contact f.frames.payloadBudget f.mailbox (.ok (some record)) m)
      (failed : f.frames.write sink record.encode false = (.error fault, frames)) :
      Fails f (.connection fault) { mailbox := m, frames, taken := f.taken ++ [record] }

/-- How a part of the filling that starts at `f` goes on and ends, if records of at most so many
    kinds turn out not to be due. A record that is given back ends the filling. -/
inductive Fills : Nat → Filling σ δ → Except SessionFault Bool × Filling σ δ → Prop where
  | idle {kinds : Nat} {f : Filling σ δ} {m : σ} {ended : Except SessionFault Bool × Filling σ δ}
      (asked : Asks source contact f.frames.payloadBudget f.mailbox (.ok none) m)
      (rest : Fills kinds { f with mailbox := m } ended) : Fills (kinds + 1) f ended
  | wrote {kinds : Nat} {f : Filling σ δ} {record : Record} {m : σ} {frames : FrameWriter δ}
      {ended : Except SessionFault Bool × Filling σ δ}
      (asked : Asks source contact f.frames.payloadBudget f.mailbox (.ok (some record)) m)
      (fits : record.encode.length ≤ f.frames.payloadBudget)
      (written : f.frames.write sink record.encode false = (.ok (), frames))
      (rest : Fills kinds { mailbox := m, frames, taken := f.taken ++ [record] } ended) :
      Fills kinds f ended
  | stops {kinds : Nat} {f : Filling σ δ} {more : Bool} : Fills kinds f (.ok more, f)
  | gaveBack {kinds : Nat} {f : Filling σ δ} {record : Record} {m m' : σ}
      (asked : Asks source contact f.frames.payloadBudget f.mailbox (.ok (some record)) m)
      (large : f.frames.payloadBudget < record.encode.length)
      (restored : source.restore contact [record] m = (.ok (), m')) :
      Fills kinds f (.ok false, { f with mailbox := m' })
  | fails {kinds : Nat} {f f' : Filling σ δ} {fault : SessionFault}
      (fails : Fails source sink contact f fault f') : Fills kinds f (.error fault, f')

/-- Any number of moves that go well. -/
abbrev Moves : Filling σ δ → Filling σ δ → Prop :=
  Relation.ReflTransGen (Move source sink contact)

/-- How a part of the filling that starts at `f` ends: after moves that went well, and one that went
    wrong if it reports a fault. -/
def Ends (f : Filling σ δ) : Except SessionFault Bool × Filling σ δ → Prop
  | (.ok _, f') => Moves source sink contact f f'
  | (.error fault, f') =>
      ∃ last, Moves source sink contact f last ∧ Fails source sink contact last fault f'

variable {source sink contact}

theorem Ends.after {f between : Filling σ δ} {ended : Except SessionFault Bool × Filling σ δ}
    (move : Move source sink contact f between) (ends : Ends source sink contact between ended) :
    Ends source sink contact f ended := by
  rcases ended with ⟨_ | _, f'⟩
  · obtain ⟨last, more, fails⟩ := ends
    exact ⟨last, .head move more, fails⟩
  · exact .head move ends

namespace Fills

variable {kinds others : Nat} {f between : Filling σ δ}
  {ended : Except SessionFault Bool × Filling σ δ}

theorem ends (fills : Fills source sink contact kinds f ended) :
    Ends source sink contact f ended := by
  induction fills with
  | idle asked _ ih => exact .after (.idle asked) ih
  | wrote asked fits written _ ih => exact .after (.wrote asked fits written) ih
  | stops => exact .refl
  | gaveBack asked large restored => exact .single (.gaveBack asked large restored)
  | fails fails => exact ⟨_, .refl, fails⟩

theorem mono (fills : Fills source sink contact kinds f ended) (more : kinds ≤ others) :
    Fills source sink contact others f ended := by
  induction fills generalizing others with
  | idle asked _ ih =>
      obtain ⟨fewer, rfl⟩ := Nat.exists_eq_add_of_le' (Nat.le_trans (Nat.le_add_left 1 _) more)
      exact .idle asked (ih (Nat.le_of_succ_le_succ more))
  | wrote asked fits written _ ih => exact .wrote asked fits written (ih more)
  | stops => exact .stops
  | gaveBack asked large restored => exact .gaveBack asked large restored
  | fails fails => exact .fails fails

theorem trans (fills : Fills source sink contact kinds f (.ok true, between))
    (goesOn : Fills source sink contact others between ended) :
    Fills source sink contact (kinds + others) f ended := by
  generalize first : ((.ok true : Except SessionFault Bool), between) = before at fills
  induction fills with
  | idle asked _ ih =>
      rw [Nat.add_right_comm]
      exact .idle asked (ih first)
  | wrote asked fits written _ ih => exact .wrote asked fits written (ih first)
  | stops =>
      obtain rfl := (Prod.mk.inj first).2
      exact goesOn.mono (Nat.le_add_left ..)
  | gaveBack | fails => cases first

theorem andThen {first next : Step σ δ} (begins : Fills source sink contact kinds f (first f))
    (goesOn : ∀ between, Fills source sink contact others between (next between)) :
    Fills source sink contact (kinds + others) f (first.andThen next f) := by
  simp only [Step.andThen]
  split
  next between before =>
    rw [before] at begins
    exact begins.trans (goesOn between)
  next => exact begins.mono (Nat.le_add_right ..)

end Fills

/-- A record that was handed out is written or given back. -/
theorem fills_writeRecord {f : Filling σ δ} {record : Record} {m : σ}
    (asked : Asks source contact f.frames.payloadBudget f.mailbox (.ok (some record)) m) :
    Fills source sink contact 0 f
      (writeRecord source sink contact record { f with mailbox := m }) := by
  simp only [writeRecord]
  split
  next large =>
    split
    next restored => exact .gaveBack asked large restored
    next restored => exact .fails (.notRestored asked large restored)
  next fits =>
    split
    next written => exact .wrote asked (Nat.le_of_not_lt fits) written .stops
    next failed => exact .fails (.notWritten asked failed)

section Kinds

variable {α : Type} {toRecord : α → Record}

theorem fills_writeUpdate {generate : ContactId → σ → Except MailboxFault (Option α) × σ}
    (asks : ∀ budget mailbox, Asks source contact budget mailbox
      ((generate contact mailbox).1.map (·.map toRecord)) (generate contact mailbox).2)
    (f : Filling σ δ) :
    Fills source sink contact 1 f (writeUpdate source sink contact toRecord generate f) := by
  have asked := asks f.frames.payloadBudget f.mailbox
  simp only [writeUpdate]
  split
  next given =>
    rw [given] at asked
    exact .fails (.refused asked)
  next given =>
    rw [given] at asked
    exact .idle asked .stops
  next given =>
    rw [given] at asked
    exact (fills_writeRecord asked).mono (Nat.zero_le 1)

theorem fills_writeWhileDue {generate : ContactId → Nat → σ → Except MailboxFault (Option α) × σ}
    (asks : ∀ budget mailbox, Asks source contact budget mailbox
      ((generate contact budget mailbox).1.map (·.map toRecord))
      (generate contact budget mailbox).2)
    (f : Filling σ δ) :
    Fills source sink contact 1 f (writeWhileDue source sink contact toRecord generate f) := by
  fun_induction writeWhileDue source sink contact toRecord generate f with
  | case1 f => exact .stops
  | case2 f _ fault m given =>
      have asked := asks f.frames.payloadBudget f.mailbox
      rw [given] at asked
      exact .fails (.refused asked)
  | case3 f _ m given =>
      have asked := asks f.frames.payloadBudget f.mailbox
      rw [given] at asked
      exact .idle asked .stops
  | case4 f _ part m given between written ih =>
      have asked := asks f.frames.payloadBudget f.mailbox
      rw [given] at asked
      have one : Fills source sink contact 0 f
          (writeRecord source sink contact (toRecord part) { f with mailbox := m }) :=
        fills_writeRecord asked
      simp only [written] at one
      exact one.trans ih
  | case5 f _ part m given stopped =>
      have asked := asks f.frames.payloadBudget f.mailbox
      rw [given] at asked
      exact (fills_writeRecord asked).mono (Nat.zero_le 1)

end Kinds

theorem fills_writeRecords (f : Filling σ δ) :
    Fills source sink contact 4 f (writeRecords source sink contact f) := by
  change Fills source sink contact (1 + (1 + (1 + 1))) f _
  refine .andThen (fills_writeUpdate (fun _ _ => .transportUpdate rfl rfl) f) fun f => ?_
  refine .andThen (fills_writeUpdate (fun _ _ => .subscriptionUpdate rfl rfl) f) fun f => ?_
  refine .andThen (fills_writeWhileDue (fun _ _ => .ack rfl rfl) f) fun f => ?_
  exact fills_writeWhileDue (fun _ _ => .batch rfl rfl) f

/-- A filling fails on its way, or it gets to the point of closing the connection. -/
theorem run_cases {f f' : Filling σ δ} {result : Except SessionFault Unit}
    (ran : run source sink contact f = (result, f')) :
    (∃ fault, result = .error fault ∧ Fills source sink contact 4 f (.error fault, f')) ∨
      ∃ more last closed frames, Fills source sink contact 4 f (.ok more, last) ∧
        last.frames.finish sink = (closed, frames) ∧ result = closed.mapError .connection ∧
        f' = { last with frames } := by
  have fills : Fills source sink contact 4 f (writeRecords source sink contact f) :=
    fills_writeRecords f
  simp only [run] at ran
  split at ran
  next stopped =>
    obtain ⟨rfl, rfl⟩ := Prod.mk.inj ran
    exact .inl ⟨_, rfl, stopped ▸ fills⟩
  next filled =>
    rw [filled] at fills
    split at ran
    next closed =>
      obtain ⟨rfl, rfl⟩ := Prod.mk.inj ran
      exact .inr ⟨_, _, _, _, fills, closed, rfl, rfl⟩
    next open_ =>
      obtain ⟨rfl, rfl⟩ := Prod.mk.inj ran
      exact .inr ⟨_, _, _, _, fills, open_, rfl, rfl⟩

/-- A filling that completes made moves that went well and closed the connection. -/
theorem run_ok {f f' : Filling σ δ} (completed : run source sink contact f = (.ok (), f')) :
    ∃ last frames, Moves source sink contact f last ∧
      last.frames.finish sink = (.ok (), frames) ∧ f' = { last with frames } := by
  rcases run_cases completed with
    ⟨fault, failed, -⟩ | ⟨more, last, closed, frames, fills, finished, same, rfl⟩
  · cases failed
  · cases closed with
    | error cause => cases same
    | ok => exact ⟨last, frames, fills.ends, finished, rfl⟩

/-- A filling that fails made moves that went well, and then one went wrong, or the connection could
    not be closed. -/
theorem run_error {f f' : Filling σ δ} {fault : SessionFault}
    (failed : run source sink contact f = (.error fault, f')) :
    ∃ last, Moves source sink contact f last ∧
      (Fails source sink contact last fault f' ∨ ∃ cause frames,
        last.frames.finish sink = (.error cause, frames) ∧ fault = .connection cause ∧
          f' = { last with frames }) := by
  rcases run_cases failed with
    ⟨other, same, fills⟩ | ⟨more, last, closed, frames, fills, finished, same, rfl⟩
  · obtain rfl := Except.error.inj same
    obtain ⟨last, moves, fails⟩ := fills.ends
    exact ⟨last, moves, .inl fails⟩
  · cases closed with
    | error cause =>
        exact ⟨last, fills.ends, .inr ⟨cause, frames, finished, Except.error.inj same, rfl⟩⟩
    | ok => cases same

end Filling

/-! ## Whole runs -/

namespace Sending

variable {σ δ : Type}

/-- The ways in which a session runs. -/
inductive Runs (source : RecordSource σ) (writer : WritingEnd δ) (route : Route)
    (s : Sending σ δ) : Except SessionFault SendOutcome → Sending σ δ → Prop where
  | refused {fault : MailboxFault} {mailbox : σ}
      (asked : source.context route s.mailbox = (.error fault, mailbox)) :
      Runs source writer route s (.error (.mailbox fault)) { s with mailbox }
  | unkeyed {mailbox : σ} (asked : source.context route s.mailbox = (.ok none, mailbox)) :
      Runs source writer route s (.ok (.aborted .noContext)) { s with mailbox }
  | narrow {context : Context} {mailbox : σ}
      (asked : source.context route s.mailbox = (.ok (some context), mailbox))
      (narrow : writer.capacity < Frame.minConnectionLength) :
      Runs source writer route s (.ok (.aborted .insufficientCapacity)) { s with mailbox }
  | unmade {context : Context} {mailbox : σ} {fault : ConnectionFault}
      (asked : source.context route s.mailbox = (.ok (some context), mailbox))
      (made : FrameWriter.ofContext context s.device writer.capacity writer.maxFrameLength =
        .error fault) :
      Runs source writer route s (.error (.connection fault)) { s with mailbox }
  | completed {context : Context} {mailbox : σ} {frames : FrameWriter δ} {f : Filling σ δ}
      (asked : source.context route s.mailbox = (.ok (some context), mailbox))
      (made : FrameWriter.ofContext context s.device writer.capacity writer.maxFrameLength =
        .ok frames)
      (filled : Filling.run source writer.sink route.contact { mailbox, frames } = (.ok (), f)) :
      Runs source writer route s (.ok (.completed f.frames.written f.taken.length))
        { s with mailbox := f.mailbox, device := f.frames.outlet.device }
  | failed {context : Context} {mailbox : σ} {frames : FrameWriter δ} {f : Filling σ δ}
      {fault : SessionFault}
      (asked : source.context route s.mailbox = (.ok (some context), mailbox))
      (made : FrameWriter.ofContext context s.device writer.capacity writer.maxFrameLength =
        .ok frames)
      (filled : Filling.run source writer.sink route.contact { mailbox, frames } =
        (.error fault, f)) :
      Runs source writer route s (.error fault)
        { s with mailbox := f.givenBack source route.contact, device := f.frames.outlet.device }

theorem runs_of_run {source : RecordSource σ} {writer : WritingEnd δ} {route : Route}
    {s s' : Sending σ δ} {result : Except SessionFault SendOutcome}
    (ran : s.run source writer route = (result, s')) : Runs source writer route s result s' := by
  simp only [run] at ran
  split at ran
  next asked =>
    obtain ⟨rfl, rfl⟩ := Prod.mk.inj ran
    exact .refused asked
  next asked =>
    obtain ⟨rfl, rfl⟩ := Prod.mk.inj ran
    exact .unkeyed asked
  next asked =>
    split at ran
    next narrow =>
      obtain ⟨rfl, rfl⟩ := Prod.mk.inj ran
      exact .narrow asked narrow
    next =>
      split at ran
      next made =>
        obtain ⟨rfl, rfl⟩ := Prod.mk.inj ran
        exact .unmade asked made
      next made =>
        split at ran
        next filled =>
          obtain ⟨rfl, rfl⟩ := Prod.mk.inj ran
          exact .completed asked made filled
        next filled =>
          obtain ⟨rfl, rfl⟩ := Prod.mk.inj ran
          exact .failed asked made filled

end Sending

end Courier.Session
