import Courier.Party
import Courier.Proofs.Connection.Writing
import Courier.Proofs.Mailbox.Taking
import Courier.Proofs.Session.Memory

/-! # What a completed connection carries

The records of a connection are taken from the front of what a conversation has
to send, and each is written as one frame in the order of taking. So the bytes
of a connection that completed are the tag, these frames under consecutive
numbers, and an empty final frame, and the messages in them are the ones that
the queue has lost at its front.
-/

namespace Courier

/-- The messages that a record brings. -/
def Record.messages : Record → List Bytes
  | .batch sent => sent.messages
  | transportUpdate _ | subscriptionUpdate _ | ack _ => []

/-- The names that a record acknowledges. -/
def Record.acked : Record → List BatchId
  | .ack sent => sent.batchIds
  | transportUpdate _ | subscriptionUpdate _ | batch _ => []

/-- Only batches carry messages. -/
theorem Record.messages_batches (records : List Record) :
    (batches records).flatMap (·.messages) = records.flatMap Record.messages := by
  induction records with
  | nil => rfl
  | cons record records ih =>
      have first : (batches [record]).flatMap (·.messages) = record.messages := by
        cases record <;> simp [batches, batch?, messages]
      rw [← List.singleton_append, batches_append, List.flatMap_append, ih, first,
        List.flatMap_append, List.flatMap_singleton]

/-- One frame for each record. -/
def Frame.ofRecords (records : List Record) : List Frame.Marked :=
  records.map fun record => (record.encode, false)

namespace Session

/-- The frames of a connection that was closed after these records. -/
def framesOf (records : List Record) : List Frame.Marked :=
  Frame.ofRecords records ++ [([], true)]

/-- The bytes carry these records, on this stream of the sender `role`. -/
structure Carries (secret : Secret) (stream : Nat) (role : Role) (records : List Record)
    (bytes : Bytes) : Prop where
  within : Frame.Within Frame.maxLength (framesOf records)
  numbers : (framesOf records).length ≤ Frame.maxNumber + 1
  spelled : ∃ tag key, Tag.make secret stream role = .ok tag ∧
    secret.derive (.frameKey role stream) = .ok key ∧
    bytes = tag.toBytes ++ Frame.bytesFrom key 0 (framesOf records)

end Session

namespace Conversation

/-- What is left of a conversation once records were taken from it one after the other. -/
structure Hands (start : Conversation) (records : List Record) (c : Conversation) : Prop where
  role : c.role = start.role
  lanes : c.lanes = start.lanes
  queued : start.queued = records.flatMap Record.messages ++ c.queued
  outstanding : c.outstanding = start.outstanding ++ records.filterMap Record.batch?
  owed : start.acksOwed = records.flatMap Record.acked ++ c.acksOwed
  received : c.received = start.received
  seen : c.seen = start.seen
  distinct : c.acksOwed.Nodup

variable {transports : Option TransportUpdate} {subscriptions : Option SubscriptionUpdate}
  {start c c' : Conversation} {records : List Record}

theorem Hands.refl (distinct : c.acksOwed.Nodup) : c.Hands [] c :=
  ⟨rfl, rfl, rfl, (List.append_nil _).symm, rfl, rfl, rfl, distinct⟩

theorem Hands.kept (hands : start.Hands records c) (kept : Kept transports subscriptions c c') :
    start.Hands records c' where
  role := kept.role.trans hands.role
  lanes := kept.lanes.trans hands.lanes
  queued := by rw [kept.queued, hands.queued]
  outstanding := kept.outstanding.trans hands.outstanding
  owed := by rw [kept.acksOwed, hands.owed]
  received := kept.received.trans hands.received
  seen := kept.seen.trans hands.seen
  distinct := kept.acksOwed.symm ▸ hands.distinct

theorem Hands.takes {record : Record} (hands : start.Hands records c)
    (takes : Takes transports subscriptions c record c') :
    start.Hands (records ++ [record]) c' := by
  have distinct := takes.nodup_acksOwed hands.distinct
  obtain ⟨role, lanes, queued, outstanding, owed, received, seen, -⟩ := hands
  cases takes with
  | transportUpdate | subscriptionUpdate =>
      exact ⟨role, lanes, by simp [queued, Record.messages], by simp [outstanding, Record.batch?],
        by simp [owed, Record.acked], received, seen, distinct⟩
  | ack split =>
      refine ⟨role, lanes, by simp [queued, Record.messages], by simp [outstanding, Record.batch?],
        ?_, received, seen, distinct⟩
      rw [owed, split]
      simp [Record.acked]
  | batch split =>
      refine ⟨role, lanes, ?_, ?_, by simp [owed, Record.acked], received, seen, distinct⟩
      · rw [queued, split]
        simp [Record.messages]
      · rw [outstanding]
        simp [Record.batch?]

end Conversation

/-- What becomes of a mailbox that sent these records as a connection of these bytes, on the next
    stream of the lane. -/
inductive Mailbox.Sends (m : Mailbox) (route : Route) (records : List Record) (bytes : Bytes) :
    Mailbox → Prop where
  | onLane {c c' : Conversation} {lane : Lane} (found : m.conversation? route.contact = some c)
      (here : c.lanes.find? route.transport = some lane)
      (hands : Conversation.Hands
        { c with lanes := c.lanes.insert route.transport { lane with next := lane.next + 1 } }
        records c')
      (carries : Session.Carries lane.secret lane.next c.role records bytes) :
      Sends m route records bytes (m.setConversation route.contact c')

/-- The conversation that records were taken from, and what the connection carries. -/
theorem Mailbox.Sends.conversation {m m' : Mailbox} {route : Route} {records : List Record}
    {bytes : Bytes} (sends : m.Sends route records bytes m') {c : Conversation} {lane : Lane}
    (found : m.conversation? route.contact = some c)
    (here : c.lanes.find? route.transport = some lane) :
    ∃ c', m'.conversation? route.contact = some c' ∧
      Conversation.Hands
        { c with lanes := c.lanes.insert route.transport { lane with next := lane.next + 1 } }
        records c' ∧
      Session.Carries lane.secret lane.next c.role records bytes := by
  cases sends with
  | onLane found' here' hands carries =>
      obtain rfl := Option.some.inj (found.symm.trans found')
      obtain rfl := Option.some.inj (here.symm.trans here')
      exact ⟨_, conversation?_setConversation_self .., hands, carries⟩

namespace Session

variable {σ δ : Type} {source : RecordSource σ} {sink : Sink δ} {contact : ContactId}

namespace Filling

/-! ## What any filling writes -/

section

variable {f f' : Filling σ δ}

/-- What was taken is what was written, one frame for each record. -/
theorem writeEach_of_moves (moves : Moves source sink contact f f') :
    ∃ written, f'.taken = f.taken ++ written ∧
      f.frames.writeEach sink (Frame.ofRecords written) = (.ok (), f'.frames) := by
  induction moves with
  | refl => exact ⟨[], (List.append_nil _).symm, rfl⟩
  | tail _ move ih =>
      obtain ⟨written, taken, each⟩ := ih
      cases move with
      | idle | gaveBack => exact ⟨written, taken, each⟩
      | @wrote record _ _ _ _ more =>
          refine ⟨written ++ [record], by rw [taken, List.append_assoc], ?_⟩
          rw [Frame.ofRecords, List.map_append, ← Frame.ofRecords,
            FrameWriter.writeEach_append each]
          simp only [List.map_cons, List.map_nil, FrameWriter.writeEach, more]

/-- A filling that took something and completed has written a whole connection of what it took. -/
theorem writeEach_of_run (nothing : f.taken = []) (unfinished : f.frames.finished = false)
    (room : Frame.overhead ≤ f.frames.maxLength)
    (completed : run source sink contact f = (.ok (), f')) (some : f'.taken ≠ []) :
    ∃ last, f.frames.writeEach sink (framesOf f'.taken) = (.ok (), last) ∧
      last.flush sink = (.ok (), f'.frames) := by
  obtain ⟨filled, frames, moves, closed, rfl⟩ := run_ok completed
  obtain ⟨written, taken, each⟩ := writeEach_of_moves moves
  rw [nothing, List.nil_append] at taken
  rw [← taken] at each
  have frames_some : Frame.ofRecords filled.taken ≠ [] := by simpa [Frame.ofRecords] using some
  have sent := ((FrameWriter.limits_of_writeEach each room).2 frames_some).2
  have still : filled.frames.finished = false := by
    refine FrameWriter.unfinished_of_writeEach unfinished (fun frame member => ?_) each
    obtain ⟨record, -, rfl⟩ := List.mem_map.mp member
    rfl
  obtain ⟨last, final, flushed⟩ := FrameWriter.write_of_finish sent still closed
  exact ⟨last, by rw [framesOf, FrameWriter.writeEach_append each, final], flushed⟩

/-- What a device holds once a filling that took something has completed. -/
theorem carries_of_run {held : δ → Bytes} (keeps : sink.Keeps held) {context : Context}
    {device : δ} (empty : held device = []) {capacity limit : Nat} {mailbox : σ}
    {begun : FrameWriter δ} (made : FrameWriter.ofContext context device capacity limit = .ok begun)
    (completed : run source sink contact { mailbox, frames := begun } = (.ok (), f'))
    (some : f'.taken ≠ []) :
    Carries context.secret context.stream context.role f'.taken (held f'.frames.outlet.device) := by
  obtain ⟨room, tag, key, tagged, keyed, fresh⟩ := (FrameWriter.make_eq_ok_iff ..).mp made
  have limit_le : begun.maxLength ≤ Frame.maxLength := by
    rw [fresh]
    exact Nat.min_le_right _ _
  have overhead_le : Frame.overhead ≤ begun.maxLength := by
    rw [fresh]
    exact Nat.le_of_lt room
  obtain ⟨last, written, flushed⟩ :=
    writeEach_of_run rfl (by rw [fresh]) overhead_le completed some
  have frames_some : framesOf f'.taken ≠ [] := by simp [framesOf]
  obtain ⟨within, numbers⟩ := FrameWriter.limits_of_writeEach written overhead_le
  have since : Sink.Since held [] f'.frames.outlet := by
    have begins : Sink.Since held [] begun.outlet := by
      rw [fresh, Sink.Since, empty]
      rfl
    have sent := FrameWriter.writeEach_since keeps (framesOf f'.taken) begins
    rw [written] at sent
    have kept := FrameWriter.flush_since keeps sent
    rwa [flushed] at kept
  refine ⟨fun frame member => Nat.le_trans (within frame member) limit_le, ?_, tag, key, tagged,
    keyed, ?_⟩
  · have all := (numbers frames_some).1
    simpa [fresh] using all
  · rw [since, FrameWriter.taken_of_flush flushed, FrameWriter.writeEach_taken frames_some written,
      fresh]
    rfl

end

/-! ## What a mailbox hands out -/

variable {m : Mailbox} {start : Conversation} {f f' : Filling Mailbox δ}

/-- The records taken so far came from `start`. -/
def Handed (m : Mailbox) (contact : ContactId) (start : Conversation)
    (f : Filling Mailbox δ) : Prop :=
  ∃ c, f.mailbox = m.setConversation contact c ∧ start.Hands f.taken c

theorem Handed.move (handed : f.Handed m contact start)
    (move : Move Mailbox.source sink contact f f') : f'.Handed m contact start := by
  obtain ⟨c, held, hands⟩ := handed
  have found : f.mailbox.conversation? contact = some c := by simp [held]
  rcases Mailbox.move_cases found hands.distinct move with
    ⟨c', rfl, kept⟩ | ⟨record, c', frames, takes, more, rfl⟩
  · exact ⟨c', by simp [held], hands.kept kept⟩
  · exact ⟨c', by simp [held], hands.takes takes⟩

theorem Handed.moves (handed : f.Handed m contact start)
    (moves : Moves Mailbox.source sink contact f f') : f'.Handed m contact start := by
  induction moves with
  | refl => exact handed
  | tail _ move ih => exact ih.move move

end Filling

namespace Sending

/-- The bytes of a connection that completed with some records carry the records that its
    conversation has lost. -/
theorem sends_of_run {held : δ → Bytes} {writer : WritingEnd δ} {route : Route}
    {s s' : Sending Mailbox δ} {bytes records : Nat} (keeps : writer.sink.Keeps held)
    (empty : held s.device = [])
    (distinct : ∀ c, s.mailbox.conversation? route.contact = some c → c.acksOwed.Nodup)
    (completed : s.run Mailbox.source writer route = (.ok (.completed bytes records), s'))
    (some : 0 < records) :
    ∃ taken, taken.length = records ∧ s.mailbox.Sends route taken (held s'.device) s'.mailbox := by
  cases runs_of_run completed with
  | @completed context mailbox frames f asked made filled =>
      obtain ⟨c, lane, found, here, -, rfl, rfl⟩ := Mailbox.context_of_some asked
      have taken_some : f.taken ≠ [] := by
        intro none
        rw [none] at some
        exact Nat.lt_irrefl 0 some
      let used : Conversation :=
        { c with lanes := c.lanes.insert route.transport { lane with next := lane.next + 1 } }
      have nothing : Filling.Handed s.mailbox route.contact used
          { mailbox := s.mailbox.setConversation route.contact used, frames } :=
        ⟨used, rfl, .refl (distinct c found)⟩
      obtain ⟨last, closed, moves, -, same⟩ := Filling.run_ok filled
      obtain ⟨c', left, hands⟩ := nothing.moves moves
      rw [show last.mailbox = f.mailbox by rw [same]] at left
      rw [show last.taken = f.taken by rw [same]] at hands
      have carries := Filling.carries_of_run keeps empty made filled taken_some
      have sends := Mailbox.Sends.onLane found here hands carries
      refine ⟨f.taken, rfl, ?_⟩
      rwa [← left] at sends

end Sending

end Session

theorem Party.sends_of_send {δ : Type} {held : δ → Bytes} {writer : WritingEnd δ} {route : Route}
    {p p' : Party} {device device' : δ} {bytes records : Nat} (faithful : writer.Faithful held)
    (empty : held device = [])
    (distinct : ∀ c, p.mailbox.conversation? route.contact = some c → c.acksOwed.Nodup)
    (completed : p.send route writer device = (.ok (.completed bytes records), device', p'))
    (some : 0 < records) :
    ∃ taken, taken.length = records ∧ p'.roster = p.roster ∧
      p.mailbox.Sends route taken (held device') p'.mailbox := by
  simp only [send, sending, Session.Sending.send] at completed
  rcases ran : Session.Sending.run Mailbox.source writer route { mailbox := p.mailbox, device }
    with ⟨result, s⟩
  rw [ran] at completed
  obtain ⟨rfl, rfl, rfl⟩ := completed
  obtain ⟨taken, count, sends⟩ :=
    Session.Sending.sends_of_run faithful.keeps empty distinct ran some
  refine ⟨taken, count, rfl, ?_⟩
  rw [faithful.released]
  exact sends

/-- What is left of the conversation, and what the connection carries. -/
theorem Party.hands_of_send {δ : Type} {held : δ → Bytes} {writer : WritingEnd δ} {route : Route}
    {p p' : Party} {device device' : δ} {bytes records next : Nat} {secret : Secret}
    {c : Conversation} (faithful : writer.Faithful held) (empty : held device = [])
    (found : p.mailbox.conversation? route.contact = some c)
    (here : c.lanes.find? route.transport = some { secret, next }) (once : c.acksOwed.Nodup)
    (completed : p.send route writer device = (.ok (.completed bytes records), device', p'))
    (some : 0 < records) :
    ∃ taken c', taken.length = records ∧ p'.roster = p.roster ∧
      p'.mailbox.conversation? route.contact = .some c' ∧
      Conversation.Hands
        { c with lanes := c.lanes.insert route.transport { secret, next := next + 1 } } taken c' ∧
      Session.Carries secret next c.role taken (held device') := by
  have distinct : ∀ other, p.mailbox.conversation? route.contact = .some other →
      other.acksOwed.Nodup := by
    intro other its
    exact Option.some.inj (found.symm.trans its) ▸ once
  obtain ⟨taken, count, roster, sends⟩ := sends_of_send faithful empty distinct completed some
  obtain ⟨c', known, hands, carries⟩ := sends.conversation found here
  exact ⟨taken, c', count, roster, known, hands, carries⟩

end Courier
