import Courier.Proofs.Session.Filling

/-! # Sessions with other collaborators, and sessions that are observed

A session does nothing with the states of its collaborators but hand them on. So
a map between states that fits the answers turns each run into the run with the
other collaborators. In particular nothing changes if every call of the source
of records and of the writing end is noted down, with its answer.
-/

namespace Courier

variable {σ σ' δ δ' : Type}

/-! ## Other sinks -/

/-- The second sink answers at `h device` as the first one does at `device`, and goes on there. -/
structure Sink.Maps (h : δ → δ') (sink : Sink δ) (sink' : Sink δ') : Prop where
  write : ∀ data device, sink'.write data (h device) = Prod.map id h (sink.write data device)
  flush : ∀ device, sink'.flush (h device) = Prod.map id h (sink.flush device)

def Outlet.map (h : δ → δ') (outlet : Outlet δ) : Outlet δ' :=
  ⟨h outlet.device, outlet.gathered⟩

def FrameWriter.map (h : δ → δ') (w : FrameWriter δ) : FrameWriter δ' :=
  { outlet := w.outlet.map h, key := w.key, pendingTag := w.pendingTag, frames := w.frames,
    remaining := w.remaining, maxLength := w.maxLength, written := w.written,
    finished := w.finished, faulted := w.faulted }

theorem FrameWriter.ofContext_mapped (h : δ → δ') (context : Context) (device : δ)
    (capacity limit : Nat) :
    ofContext context (h device) capacity limit =
      (ofContext context device capacity limit).map (·.map h) := by
  simp only [ofContext, make]
  split
  · rfl
  · split <;> rfl

namespace Sink.Maps

variable {h : δ → δ'} {sink : Sink δ} {sink' : Sink δ'}

theorem offer_mapped (maps : sink.Maps h sink') (data : Bytes) (outlet : Outlet δ) :
    sink'.offer data (outlet.map h) = Prod.map id (·.map h) (sink.offer data outlet) := by
  have answer := maps.write data outlet.device
  rcases given : sink.write data outlet.device with ⟨fault | count, device⟩ <;>
    rw [given] at answer <;> simp only [offer, Outlet.map, answer, given, Prod.map, id]

theorem writeAll_mapped (maps : sink.Maps h sink') (data : Bytes) (outlet : Outlet δ) :
    sink'.writeAll data (outlet.map h) = Prod.map id (·.map h) (sink.writeAll data outlet) := by
  fun_induction Sink.writeAll sink data outlet with
  | case1 outlet => simp [Sink.writeAll]
  | case2 outlet byte rest between offered =>
      have answer := maps.offer_mapped (byte :: rest) outlet
      rw [offered] at answer
      simp [Sink.writeAll, answer]
  | case3 outlet byte rest count between offered ih =>
      have answer := maps.offer_mapped (byte :: rest) outlet
      rw [offered] at answer
      simp [Sink.writeAll, answer, ih]
  | case4 outlet byte rest fault between offered =>
      have answer := maps.offer_mapped (byte :: rest) outlet
      rw [offered] at answer
      simp [Sink.writeAll, answer]

theorem frame_mapped (maps : sink.Maps h sink') (w : FrameWriter δ) (payload : Bytes)
    (final : Bool) :
    (w.map h).write sink' payload final = Prod.map id (·.map h) (w.write sink payload final) := by
  have answer := maps.writeAll_mapped (w.nextBytes payload final) w.outlet
  have same : (w.map h).refusal? payload.length = w.refusal? payload.length := rfl
  have offered : (w.map h).nextBytes payload final = w.nextBytes payload final := rfl
  have outlet : (w.map h).outlet = w.outlet.map h := rfl
  simp only [FrameWriter.write, same, offered, outlet, answer]
  cases w.refusal? payload.length with
  | some fault => rfl
  | none => rcases sink.writeAll _ w.outlet with ⟨fault | done, after⟩ <;> rfl

theorem flush_mapped (maps : sink.Maps h sink') (w : FrameWriter δ) :
    (w.map h).flush sink' = Prod.map id (·.map h) (w.flush sink) := by
  have answer := maps.flush w.outlet.device
  have device : (w.map h).outlet.device = h w.outlet.device := rfl
  rcases flushed : sink.flush w.outlet.device with ⟨fault | done, after⟩ <;>
    simp only [FrameWriter.flush, Sink.flushAll, device, answer, flushed, Prod.map, id] <;> rfl

theorem finish_mapped (maps : sink.Maps h sink') (w : FrameWriter δ) :
    (w.map h).finish sink' = Prod.map id (·.map h) (w.finish sink) := by
  have faulted : (w.map h).faulted = w.faulted := rfl
  have finished : (w.map h).finished = w.finished := rfl
  have tag : (w.map h).pendingTag = w.pendingTag := rfl
  simp only [FrameWriter.finish, faulted, finished, tag, maps.frame_mapped]
  split
  · rfl
  · split
    · exact maps.flush_mapped w
    · rcases w.write sink [] true with ⟨fault | done, after⟩
      · rfl
      · exact maps.flush_mapped after

end Sink.Maps

/-! ## Other sources -/

/-- The second source answers at `g mailbox` as the first one does at `mailbox`, and goes on
    there. -/
structure RecordSource.Maps (g : σ → σ') (source : RecordSource σ) (source' : RecordSource σ') :
    Prop where
  context : ∀ route m, source'.context route (g m) = Prod.map id g (source.context route m)
  transportUpdate : ∀ contact m,
    source'.transportUpdate contact (g m) = Prod.map id g (source.transportUpdate contact m)
  subscriptionUpdate : ∀ contact m,
    source'.subscriptionUpdate contact (g m) = Prod.map id g (source.subscriptionUpdate contact m)
  ack : ∀ contact limit m,
    source'.ack contact limit (g m) = Prod.map id g (source.ack contact limit m)
  batch : ∀ contact limit m,
    source'.batch contact limit (g m) = Prod.map id g (source.batch contact limit m)
  restore : ∀ contact records m,
    source'.restore contact records (g m) = Prod.map id g (source.restore contact records m)

namespace Session

def Filling.map (g : σ → σ') (h : δ → δ') (f : Filling σ δ) : Filling σ' δ' :=
  { mailbox := g f.mailbox, frames := f.frames.map h, taken := f.taken }

namespace Filling

variable {g : σ → σ'} {h : δ → δ'} {source : RecordSource σ} {source' : RecordSource σ'}
  {sink : Sink δ} {sink' : Sink δ'} {contact : ContactId}

/-- A step and its counterpart with other collaborators. -/
def Step.Maps (g : σ → σ') (h : δ → δ') (step : Step σ δ) (step' : Step σ' δ') : Prop :=
  ∀ f, step' (f.map g h) = Prod.map id (·.map g h) (step f)

theorem Step.Maps.andThen {first next : Step σ δ} {first' next' : Step σ' δ'}
    (begins : first.Maps g h first') (goesOn : next.Maps g h next') :
    (first.andThen next).Maps g h (first'.andThen next') := by
  intro f
  simp only [Step.andThen, begins f]
  rcases first f with ⟨fault | _ | _, between⟩
  · rfl
  · rfl
  · exact goesOn between

theorem writeRecord_mapped (contact : ContactId) (maps : source.Maps g source')
    (sinks : sink.Maps h sink') (record : Record) :
    Step.Maps g h (writeRecord source sink contact record)
      (writeRecord source' sink' contact record) := by
  intro f
  have budget : (f.frames.map h).payloadBudget = f.frames.payloadBudget := rfl
  have frames : (f.map g h).frames = f.frames.map h := rfl
  have mailbox : (f.map g h).mailbox = g f.mailbox := rfl
  simp only [writeRecord, frames, budget, mailbox, maps.restore, sinks.frame_mapped]
  by_cases large : f.frames.payloadBudget < record.encode.length
  · simp only [large, if_true]
    rcases source.restore contact [record] f.mailbox with ⟨fault | done, m⟩ <;> rfl
  · simp only [large, if_false]
    rcases f.frames.write sink record.encode false with ⟨fault | done, after⟩ <;> rfl

theorem writeUpdate_mapped {α : Type} {toRecord : α → Record}
    {generate : ContactId → σ → Except MailboxFault (Option α) × σ}
    {generate' : ContactId → σ' → Except MailboxFault (Option α) × σ'}
    (maps : source.Maps g source') (sinks : sink.Maps h sink')
    (same : ∀ contact m, generate' contact (g m) = Prod.map id g (generate contact m)) :
    Step.Maps g h (writeUpdate source sink contact toRecord generate)
      (writeUpdate source' sink' contact toRecord generate') := by
  intro f
  have mailbox : (f.map g h).mailbox = g f.mailbox := rfl
  simp only [writeUpdate, mailbox, same]
  rcases generate contact f.mailbox with ⟨fault | _ | update, m⟩
  · rfl
  · rfl
  · exact writeRecord_mapped contact maps sinks (toRecord update) { f with mailbox := m }

/-- One round, without a look at what becomes smaller. -/
theorem writeWhileDue_eq (source : RecordSource σ) (sink : Sink δ) (contact : ContactId) {α : Type}
    (toRecord : α → Record) (generate : ContactId → Nat → σ → Except MailboxFault (Option α) × σ)
    (f : Filling σ δ) :
    writeWhileDue source sink contact toRecord generate f =
      if f.frames.payloadBudget = 0 then
        (.ok false, f)
      else
        match generate contact f.frames.payloadBudget f.mailbox with
        | (.error fault, mailbox) => (.error (.mailbox fault), { f with mailbox })
        | (.ok none, mailbox) => (.ok true, { f with mailbox })
        | (.ok (some part), mailbox) =>
            Step.andThen (writeRecord source sink contact (toRecord part))
              (writeWhileDue source sink contact toRecord generate) { f with mailbox } := by
  fun_cases writeWhileDue source sink contact toRecord generate f with
  | case1 none => rw [if_pos none]
  | case2 some fault m given => rw [if_neg some, given]
  | case3 some m given => rw [if_neg some, given]
  | case4 some part m given between written =>
      rw [if_neg some, given]
      simp only [Step.andThen, written]
  | case5 some part m given stopped =>
      rw [if_neg some, given]
      simp only [Step.andThen]

theorem writeWhileDue_mapped {α : Type} {toRecord : α → Record}
    {generate : ContactId → Nat → σ → Except MailboxFault (Option α) × σ}
    {generate' : ContactId → Nat → σ' → Except MailboxFault (Option α) × σ'}
    (maps : source.Maps g source') (sinks : sink.Maps h sink')
    (same : ∀ contact limit m,
      generate' contact limit (g m) = Prod.map id g (generate contact limit m)) :
    Step.Maps g h (writeWhileDue source sink contact toRecord generate)
      (writeWhileDue source' sink' contact toRecord generate') := by
  intro f
  -- each record takes some room, which is the same for both
  induction left : f.frames.remaining using Nat.strongRecOn generalizing f with
  | ind remaining ih =>
    have budget : (f.map g h).frames.payloadBudget = f.frames.payloadBudget := rfl
    have mailbox : (f.map g h).mailbox = g f.mailbox := rfl
    rw [writeWhileDue_eq source', writeWhileDue_eq source, budget, mailbox, same]
    split
    · rfl
    · rcases generate contact f.frames.payloadBudget f.mailbox with ⟨fault | _ | part, m⟩
      · rfl
      · rfl
      · have one := writeRecord_mapped contact maps sinks (toRecord part)
          { f with mailbox := m }
        change Step.andThen _ _ (Filling.map g h { f with mailbox := m }) = _
        simp only [Step.andThen, one]
        rcases written : writeRecord source sink contact (toRecord part) { f with mailbox := m }
          with ⟨fault | _ | _, between⟩
        · rfl
        · rfl
        · have less : between.frames.remaining < f.frames.remaining :=
            (writeRecord_remaining_lt source sink contact written :)
          exact ih _ (left ▸ less) between rfl

theorem writeRecords_mapped (maps : source.Maps g source') (sinks : sink.Maps h sink') :
    Step.Maps g h (writeRecords source sink contact) (writeRecords source' sink' contact) := by
  refine .andThen (writeUpdate_mapped maps sinks maps.transportUpdate) ?_
  refine .andThen (writeUpdate_mapped maps sinks maps.subscriptionUpdate) ?_
  refine .andThen (writeWhileDue_mapped maps sinks maps.ack) ?_
  exact writeWhileDue_mapped maps sinks maps.batch

theorem run_mapped (maps : source.Maps g source') (sinks : sink.Maps h sink') (f : Filling σ δ) :
    run source' sink' contact (f.map g h) =
      Prod.map id (·.map g h) (run source sink contact f) := by
  simp only [run, writeRecords_mapped maps sinks f]
  rcases writeRecords source sink contact f with ⟨fault | more, last⟩
  · rfl
  · have closed := sinks.finish_mapped last.frames
    have frames : (last.map g h).frames = last.frames.map h := rfl
    simp only [Prod.map, id, frames, closed]
    rcases last.frames.finish sink with ⟨fault | done, after⟩ <;> rfl

theorem givenBack_mapped (maps : source.Maps g source') (f : Filling σ δ) :
    givenBack source' contact (f.map g h) = g (givenBack source contact f) := by
  have mailbox : (f.map g h).mailbox = g f.mailbox := rfl
  have taken : (f.map g h).taken = f.taken := rfl
  simp only [givenBack, mailbox, taken, maps.restore]
  split <;> rfl

end Filling

end Session

/-! ## Whole sessions -/

/-- The second writing end is as wide as the first one, and answers in the same way. -/
structure WritingEnd.Maps (h : δ → δ') (writer : WritingEnd δ) (writer' : WritingEnd δ') :
    Prop where
  capacity : writer'.capacity = writer.capacity
  maxFrameLength : writer'.maxFrameLength = writer.maxFrameLength
  sink : writer.sink.Maps h writer'.sink
  dispose : ∀ exception device,
    writer'.dispose exception (h device) = Prod.map id h (writer.dispose exception device)

namespace Session.Sending

variable {g : σ → σ'} {h : δ → δ'} {source : RecordSource σ} {source' : RecordSource σ'}
  {writer : WritingEnd δ} {writer' : WritingEnd δ'} {route : Route}

def map (g : σ → σ') (h : δ → δ') (s : Sending σ δ) : Sending σ' δ' :=
  { mailbox := g s.mailbox, device := h s.device, phase := s.phase }

theorem run_mapped (maps : source.Maps g source') (writers : writer.Maps h writer')
    (s : Sending σ δ) :
    (s.map g h).run source' writer' route =
      Prod.map id (·.map g h) (s.run source writer route) := by
  have mailbox : (s.map g h).mailbox = g s.mailbox := rfl
  simp only [run, mailbox, maps.context, writers.capacity, writers.maxFrameLength]
  rcases source.context route s.mailbox with ⟨fault | _ | context, m⟩
  · rfl
  · rfl
  · simp only [Prod.map, id]
    split
    · rfl
    · have device : (s.map g h).device = h s.device := rfl
      rw [device, FrameWriter.ofContext_mapped]
      rcases FrameWriter.ofContext context s.device writer.capacity writer.maxFrameLength with
        fault | frames
      · rfl
      · have begun : ({ mailbox := g m, frames := frames.map h } : Filling σ' δ') =
            Filling.map g h { mailbox := m, frames } := rfl
        simp only [Except.map, begun, Filling.run_mapped maps writers.sink]
        rcases Filling.run source writer.sink route.contact { mailbox := m, frames } with
          ⟨fault | done, f⟩
        · simp only [Prod.map, id, Filling.givenBack_mapped maps]
          rfl
        · rfl

/-- A session with other collaborators that answer in the same way ends in the same way. -/
theorem send_mapped (maps : source.Maps g source') (writers : writer.Maps h writer')
    (s : Sending σ δ) :
    (s.map g h).send source' writer' route =
      Prod.map id (·.map g h) (s.send source writer route) := by
  have phase : (s.map g h).phase = s.phase := rfl
  simp only [send, phase, run_mapped maps writers]
  cases s.phase with
  | disposed => rfl
  | start =>
      rcases s.run source writer route with ⟨result, after⟩
      have device : (after.map g h).device = h after.device := rfl
      simp only [Prod.map, id, device, writers.dispose]
      rfl

end Session.Sending

/-! ## Noting down calls -/

/-- One call of a source of records, with its answer. -/
inductive Dealing where
  | keyed (route : Route) (answer : Except MailboxFault (Option Context))
  | asked (contact : ContactId) (limit : Option Nat) (answer : Except MailboxFault (Option Record))
  | returned (contact : ContactId) (records : List Record) (answer : Except MailboxFault Unit)

/-- One call of a writing end, with its answer. -/
inductive Motion where
  | offered (data : Bytes) (answer : Except DeviceFault Nat)
  | flushed (answer : Except DeviceFault Unit)
  | released (exception : Bool) (answer : Except ConnectionFault Unit)

/-- The same source, with all that it was called for so far. -/
def RecordSource.observed (source : RecordSource σ) : RecordSource (σ × List Dealing) where
  context route s :=
    let (answer, m) := source.context route s.1
    (answer, m, s.2 ++ [.keyed route answer])
  transportUpdate contact s :=
    let (answer, m) := source.transportUpdate contact s.1
    (answer, m, s.2 ++ [.asked contact none (answer.map (·.map .transportUpdate))])
  subscriptionUpdate contact s :=
    let (answer, m) := source.subscriptionUpdate contact s.1
    (answer, m, s.2 ++ [.asked contact none (answer.map (·.map .subscriptionUpdate))])
  ack contact limit s :=
    let (answer, m) := source.ack contact limit s.1
    (answer, m, s.2 ++ [.asked contact (some limit) (answer.map (·.map .ack))])
  batch contact limit s :=
    let (answer, m) := source.batch contact limit s.1
    (answer, m, s.2 ++ [.asked contact (some limit) (answer.map (·.map .batch))])
  restore contact records s :=
    let (answer, m) := source.restore contact records s.1
    (answer, m, s.2 ++ [.returned contact records answer])

def Sink.observed (sink : Sink δ) : Sink (δ × List Motion) where
  write data d :=
    let (answer, device) := sink.write data d.1
    (answer, device, d.2 ++ [.offered data answer])
  flush d :=
    let (answer, device) := sink.flush d.1
    (answer, device, d.2 ++ [.flushed answer])

/-- The same writing end, with all that it was called for so far. -/
def WritingEnd.observed (writer : WritingEnd δ) : WritingEnd (δ × List Motion) where
  capacity := writer.capacity
  maxFrameLength := writer.maxFrameLength
  sink := writer.sink.observed
  dispose exception d :=
    let (answer, device) := writer.dispose exception d.1
    (answer, device, d.2 ++ [.released exception answer])

theorem RecordSource.observed_maps (source : RecordSource σ) :
    source.observed.Maps Prod.fst source :=
  ⟨fun _ _ => rfl, fun _ _ => rfl, fun _ _ => rfl, fun _ _ _ => rfl, fun _ _ _ => rfl,
    fun _ _ _ => rfl⟩

theorem WritingEnd.observed_maps (writer : WritingEnd δ) : writer.observed.Maps Prod.fst writer :=
  ⟨rfl, rfl, ⟨fun _ _ => rfl, fun _ => rfl⟩, fun _ _ => rfl⟩

/-- A session of which nothing has been noted down yet. -/
def Session.Sending.observed (s : Sending σ δ) : Sending (σ × List Dealing) (δ × List Motion) :=
  { mailbox := (s.mailbox, []), device := (s.device, []), phase := s.phase }

theorem Session.Sending.send_observed (source : RecordSource σ) (writer : WritingEnd δ)
    (route : Route) (s : Sending σ δ) :
    s.send source writer route =
      Prod.map id (·.map Prod.fst Prod.fst)
        (s.observed.send source.observed writer.observed route) :=
  send_mapped source.observed_maps writer.observed_maps s.observed

end Courier
