import Courier.Proofs.Connection.Truncation
import Courier.Proofs.Session.Accountability
import Courier.Proofs.Session.Acknowledgement
import Courier.Proofs.Session.Delivery
import Courier.Proofs.Session.Receipt

/-! # Receiving a connection that is cut

The connection that a session completes is a finished one, with a frame for each
record. Of its first bytes a recipient reads the frames that are whole, so it gets
exactly their records; then the session fails, with a fault that blames the bytes,
and releases its end as an exception.
-/

namespace Courier

/-- What a receiver answers to records one after the other, up to the first that it refuses. -/
def RecordReceiver.receiveAll {σ : Type} (receiver : RecordReceiver σ) (contact : ContactId) :
    List Record → σ → Except MailboxFault Unit × σ
  | [], mailbox => (.ok (), mailbox)
  | record :: records, mailbox =>
      match receiver.receive contact record mailbox with
      | (.ok (), mailbox) => receiver.receiveAll contact records mailbox
      | failed => failed

namespace Session

/-! ## What was sent -/

section Sent

variable {σ δ : Type} {source : RecordSource σ} {sink : Sink δ} {contact : ContactId}
  {held : δ → Bytes} {first : Bytes}

/-- The device holds what it has taken, also after a whole filling. -/
theorem Filling.since_of_run {f f' : Filling σ δ} (keeps : sink.Keeps held)
    (completed : run source sink contact f = (.ok (), f'))
    (since : Sink.Since held first f.frames.outlet) : Sink.Since held first f'.frames.outlet := by
  obtain ⟨last, frames, moves, closed, rfl⟩ := run_ok completed
  obtain ⟨written, -, each⟩ := writeEach_of_moves moves
  have sent := FrameWriter.writeEach_since keeps (Frame.ofRecords written) since
  rw [each] at sent
  have done := FrameWriter.finish_since keeps sent
  rwa [closed] at done

/-- A filling that has put something out has finished a connection of what it took. -/
theorem Filling.finished_of_run {f' : Filling σ δ} (keeps : sink.Keeps held) {context : Context}
    {device : δ} (empty : held device = []) {capacity limit : Nat} {mailbox : σ}
    {begun : FrameWriter δ} (made : FrameWriter.ofContext context device capacity limit = .ok begun)
    (completed : run source sink contact { mailbox, frames := begun } = (.ok (), f'))
    (some : held f'.frames.outlet.device ≠ []) :
    Frame.Finished context.secret context.stream context.role limit (framesOf f'.taken)
      (held f'.frames.outlet.device) := by
  obtain ⟨room, tag, key, -, -, fresh⟩ := (FrameWriter.make_eq_ok_iff ..).mp made
  have begins : Sink.Since held [] begun.outlet := by
    rw [fresh, Sink.Since, empty]
    rfl
  have holds : held f'.frames.outlet.device = f'.frames.outlet.taken :=
    since_of_run keeps completed begins
  rw [holds] at some ⊢
  by_cases nothing : f'.taken = []
  · rw [taken_of_empty_run (by rw [fresh]; rfl) completed nothing, fresh] at some
    exact absurd rfl some
  · obtain ⟨last, written, flushed⟩ := writeEach_of_run rfl (by rw [fresh])
      (FrameWriter.overhead_le_of_ofContext made) completed nothing
    have ran := FrameWriter.run_of_writeEach (a := { writer := begun }) written
    rw [List.nil_append] at ran
    obtain ⟨_, _, -, -, starts⟩ := FrameWriter.Accounts.begins made
    have accounts := starts.run sink ((framesOf f'.taken).map fun frame => .write frame.1 frame.2)
    rw [ran] at accounts
    have finished : last.finished = true :=
      accounts.finished ⟨([], true), List.mem_append_right _ (List.mem_singleton_self _), rfl⟩
    have whole := Frame.Finished.of_calls made
      ((framesOf f'.taken).map fun frame => .write frame.1 frame.2) (by rw [ran]; exact finished)
    rw [ran] at whole
    rw [FrameWriter.taken_of_flush flushed]
    exact whole

/-- A session that has put out a connection has finished one with a frame for each record. -/
theorem Sending.finished_of_send {writer : WritingEnd δ} {route : Route} {s s' : Sending σ δ}
    {length count : Nat} (faithful : writer.Faithful held) (empty : held s.device = [])
    (sent : s.send source writer route = (.ok (.completed length count), s'))
    (some : held s'.device ≠ []) :
    ∃ context records, (source.context route s.mailbox).1 = .ok (Option.some context) ∧
      records.length = count ∧
      Frame.Finished context.secret context.stream context.role writer.maxFrameLength
        (framesOf records) (held s'.device) := by
  simp only [send] at sent
  split at sent
  · cases sent
  · rcases ran : s.run source writer route with ⟨result, between⟩
    rw [ran] at sent
    obtain ⟨rfl, rfl⟩ := sent
    rw [faithful.released] at some ⊢
    cases runs_of_run ran with
    | @completed context mailbox frames f asked made filled =>
        exact ⟨context, f.taken, by rw [asked], rfl,
          Filling.finished_of_run faithful.keeps empty made filled some⟩

end Sent

/-! ## What is received -/

variable {ρ : Type} {left : ρ → Bytes}

section Delivering

variable {σ : Type} {receiver : RecordReceiver σ} {source : Source ρ} {contact : ContactId}

theorem Delivery.run_of_error {d : Delivery σ ρ} {frames : FrameReader ρ} {fault : ConnectionFault}
    (failed : d.frames.next source = (.error fault, frames)) :
    d.run receiver source contact = (.error (.connection fault), { d with frames }) := by
  rw [Delivery.run]
  split
  next other =>
    rw [failed] at other
    obtain ⟨same, rfl⟩ := Prod.mk.inj other
    obtain rfl := Except.error.inj same
    rfl
  next ended =>
    rw [failed] at ended
    cases ended
  next answered =>
    rw [failed] at answered
    cases answered

/-- Records ahead of a fault are delivered, and then the fault is reported. -/
theorem Delivery.run_of_breaks {records : List Record} {r r' : FrameReader ρ}
    {fault : ConnectionFault} {mailbox mailbox' : σ} (count : Nat)
    (breaks : FrameReader.Breaks source r (records.map Record.encode) fault r')
    (decoded : ∀ record ∈ records, Record.decode record.encode = .ok record)
    (taken : receiver.receiveAll contact records mailbox = (.ok (), mailbox')) :
    Delivery.run receiver source contact { mailbox, frames := r, count } =
      (.error (.connection fault),
        { mailbox := mailbox', frames := r', count := count + records.length }) := by
  induction records generalizing r mailbox count with
  | nil =>
      obtain rfl := (Prod.mk.inj taken).2
      cases breaks with
      | fails failed => exact Delivery.run_of_error failed
  | cons record records ih =>
      cases breaks with
      | more answered rest =>
          rw [RecordReceiver.receiveAll] at taken
          split at taken
          next between took =>
            have later := ih (count + 1) rest
              (fun other member => decoded other (.tail _ member)) taken
            rw [Delivery.run_of_record answered (decoded record (List.mem_cons_self ..)) took, later,
              List.length_cons, Nat.add_assoc, Nat.add_comm 1]
          next failed =>
            rw [taken] at failed
            exact absurd rfl (failed mailbox')

end Delivering

namespace Receiving

variable {κ σ : Type} {recogniser : Recogniser κ} {receiver : RecordReceiver σ}
  {reader : ReadingEnd ρ} {s middle last : Receiving κ σ ρ} {fault : SessionFault}

theorem receive_of_unidentified (unused : s.used = false)
    (failed : identify recogniser reader { s with used := true } = (.error fault, middle)) :
    s.receive recogniser receiver reader = (.error fault, middle.release reader true false) := by
  simp only [receive, unused, Bool.false_eq_true, if_false, failed]

theorem receive_of_undelivered {context : Context} (unused : s.used = false)
    (identified : identify recogniser reader { s with used := true } =
      (.ok (some context), middle))
    (failed : deliver receiver reader context middle = (.error fault, last)) :
    s.receive recogniser receiver reader = (.error fault, last.release reader true true) := by
  simp only [receive, unused, Bool.false_eq_true, if_false, identified, failed]

/-- Without a whole tag nothing is recognised. -/
theorem receive_of_short (yields : reader.source.Yields left) (unused : s.used = false)
    (short : (left s.device).length < Tag.length) :
    ∃ device, s.receive recogniser receiver reader =
        (.error (.connection .truncated), ({ s with device, used := true }).release reader true
          false) ∧
      ∀ {α : Type} {part : ρ → α}, reader.source.Spares part → part device = part s.device := by
  obtain ⟨device, unread⟩ := Tag.read_of_short yields short
  have failed : identify recogniser reader { s with used := true } =
      (.error (.connection .truncated), { s with device, used := true }) := by
    simp only [identify, unread]
  refine ⟨device, receive_of_unidentified unused failed, fun spares => ?_⟩
  have same := spares.identify recogniser { s with used := true }
  rwa [failed] at same

/-- Records ahead of a fault are handed on, and the end is released as an exception. -/
theorem receive_of_breaks {context : Context} {tag : Tag} {device : ρ} {after : κ} {mailbox : σ}
    {r r' : FrameReader ρ} {records : List Record} {fault : ConnectionFault}
    (unused : s.used = false) (read : Tag.read reader.source s.device = (.ok tag, device))
    (recognised : recogniser.recognise tag s.recogniser = (.ok (some context), after))
    (opened : FrameReader.ofContext context device reader.maxFrameLength = .ok r)
    (breaks : FrameReader.Breaks reader.source r (records.map Record.encode) fault r')
    (decoded : ∀ record ∈ records, Record.decode record.encode = .ok record)
    (taken : receiver.receiveAll context.route.contact records s.mailbox = (.ok (), mailbox)) :
    s.receive recogniser receiver reader = (.error (.connection fault),
        ({ recogniser := after, mailbox, device := r'.device, used := true } :
          Receiving κ σ ρ).release reader true true) ∧
      ∀ {α : Type} {part : ρ → α}, reader.source.Spares part →
        part r'.device = part s.device := by
  have identified : identify recogniser reader { s with used := true } =
      (.ok (some context), { s with recogniser := after, device, used := true }) := by
    simp only [identify, read, recognised]
  have ran := Delivery.run_of_breaks 0 breaks decoded taken
  have undelivered : deliver receiver reader context
      { s with recogniser := after, device, used := true } = (.error (.connection fault),
        { recogniser := after, mailbox, device := r'.device, used := true }) := by
    simp only [deliver, opened, ran]
  refine ⟨receive_of_undelivered unused identified undelivered, fun spares => ?_⟩
  have first := spares.identify recogniser { s with used := true }
  have second := spares.deliver receiver context
    { s with recogniser := after, device, used := true }
  rw [identified] at first
  rw [undelivered] at second
  exact second.trans first

end Receiving

/-- The frames inside a cut connection are those of the first records. -/
theorem inside_framesOf {room : Nat} {records : List Record}
    (cut : room < Frame.totalCost (framesOf records)) :
    (Frame.inside room (framesOf records)).map (·.1) =
      (records.take (Frame.inside room (framesOf records)).length).map Record.encode := by
  obtain ⟨next, later, split, -⟩ := Frame.inside_split cut
  generalize Frame.inside room (framesOf records) = whole at split ⊢
  have front : whole = (framesOf records).take whole.length := by
    rw [split, List.take_left]
  have few : whole.length ≤ (Frame.ofRecords records).length := by
    have lengths := congrArg List.length split
    simp only [framesOf, List.length_append, List.length_cons, List.length_nil] at lengths
    omega
  rw [framesOf, List.take_append_of_le_length few] at front
  rw [front, List.length_take, Nat.min_eq_left few, Frame.ofRecords, ← List.map_take, List.map_map]
  rfl

/-- The records of a connection are short enough to be decoded. -/
theorem decoded_of_spelled {secret key : Secret} {stream limit : Nat} {role : Role}
    {records : List Record} {tag : Tag} {bytes : Bytes}
    (spelled : Frame.Spelled secret stream role limit (framesOf records) tag key bytes) :
    ∀ record ∈ records, Record.decode record.encode = .ok record := by
  intro record member
  have short := spelled.within (record.encode, false)
    (List.mem_append_left _ (List.mem_map_of_mem member))
  have least := Nat.min_le_right limit Frame.maxLength
  refine Record.decode_encode ?_
  simp only [Frame.effectiveLength, Frame.maxLength, UInt64.size] at short least ⊢
  omega

/-- Receiving a cut connection fails after the records that are whole. -/
theorem Receiving.receive_of_cut {κ σ : Type} {recogniser : Recogniser κ}
    {receiver : RecordReceiver σ} {reader : ReadingEnd ρ} (yields : reader.source.Yields left)
    {secret key : Secret} {stream limit k : Nat} {role : Role} {records : List Record} {tag : Tag}
    {bytes : Bytes}
    (spelled : Frame.Spelled secret stream role limit (framesOf records) tag key bytes)
    (limits : Frame.effectiveLength limit ≤ Frame.effectiveLength reader.maxFrameLength)
    (cut : k < bytes.length) {s : Receiving κ σ ρ} {route : Route} {after : κ} {mailbox : σ}
    (unused : s.used = false) (given : left s.device = bytes.take k)
    (recognised : Tag.length ≤ k → recogniser.recognise tag s.recogniser =
      (.ok (some { route, secret, stream, role := role.peer }), after))
    (taken : receiver.receiveAll route.contact
      (records.take (Frame.inside (k - Tag.length) (framesOf records)).length) s.mailbox =
        (.ok (), mailbox)) :
    ∃ s' device, s.receive recogniser receiver reader =
        (.error (.connection .truncated), s') ∧ s'.mailbox = mailbox ∧
      s'.device = (reader.dispose true (decide (Tag.length ≤ k)) device).2 ∧
      ∀ {α : Type} {part : ρ → α}, reader.source.Spares part → part device = part s.device := by
  have size : tag.toBytes.length = Tag.length := Block.length_toBytes tag
  have total : bytes.length = Tag.length + Frame.totalCost (framesOf records) := by
    rw [spelled.bytes, List.length_append, size, Frame.length_bytesFrom]
  by_cases early : k < Tag.length
  · rw [Nat.sub_eq_zero_of_le (Nat.le_of_lt early), Frame.inside_zero] at taken
    obtain rfl := (Prod.mk.inj taken).2
    obtain ⟨device, received, untouched⟩ := Receiving.receive_of_short yields unused (by
      rw [given, List.length_take]
      omega)
    refine ⟨_, device, received, rfl, ?_, untouched⟩
    rw [decide_eq_false (Nat.not_le.mpr early)]
    rfl
  · have late := Nat.le_of_not_lt early
    rw [spelled.bytes, List.take_append, size,
      List.take_of_length_le (by rw [size]; exact late)] at given
    obtain ⟨device, read, rest⟩ := Tag.read_of_front yields given
    have inside : k - Tag.length < Frame.totalCost (framesOf records) := by omega
    obtain ⟨r, r', made, breaks⟩ := spelled.breaks_of_cut limits yields inside rest
    rw [inside_framesOf inside] at breaks
    have opened : FrameReader.ofContext { route, secret, stream, role := role.peer } device
        reader.maxFrameLength = .ok r := by
      rw [FrameReader.ofContext, Role.peer_peer]
      exact made
    have decoded := decoded_of_spelled spelled
    obtain ⟨received, untouched⟩ := Receiving.receive_of_breaks unused read (recognised late) opened
      breaks (fun record member => decoded record (List.mem_of_mem_take member)) taken
    refine ⟨_, r'.device, received, rfl, ?_, untouched⟩
    rw [decide_eq_true late]
    rfl

/-- What is read of the first `k` bytes of a connection. However it was written, a reader gives the
    payloads of the frames that are whole, then that it is truncated, and then only that it is
    faulted; without a whole tag it is truncated at once. If a session wrote it, then a session that
    receives these bytes hands on exactly the records of these frames, reports a fault that blames
    the bytes, and releases its end once, as an exception, recognised if the tag is whole. -/
theorem whole_frames_of_cut {reader : ReadingEnd ρ} (yields : reader.source.Yields left)
    {limit : Nat}
    (limits : Frame.effectiveLength limit ≤ Frame.effectiveLength reader.maxFrameLength)
    (k : Nat) :
    (∀ {secret : Secret} {stream : Nat} {role : Role} {frames : List Frame.Marked} {bytes : Bytes}
        {device : ρ}, Frame.Finished secret stream role limit frames bytes → k < bytes.length →
      left device = bytes.take k →
      if k < Tag.length then
        ∃ device', Tag.read reader.source device = (.error .truncated, device')
      else ∃ tag device' r, Tag.make secret stream role = .ok tag ∧
        Tag.read reader.source device = (.ok tag, device') ∧
        FrameReader.make device' reader.maxFrameLength secret stream role = .ok r ∧
        r.FailsWith reader.source ((Frame.inside (k - Tag.length) frames).map (·.1))
          .truncated) ∧
    ∀ {σ δ : Type} {source : RecordSource σ} {writer : WritingEnd δ} {held : δ → Bytes}
        {route : Route} {s s' : Sending σ δ} {length count : Nat}, writer.Faithful held →
      writer.maxFrameLength = limit → held s.device = [] →
      s.send source writer route = (.ok (.completed length count), s') →
      k < (held s'.device).length →
      ∃ context tag records, (source.context route s.mailbox).1 = .ok (some context) ∧
        Tag.make context.secret context.stream context.role = .ok tag ∧
        records.length = count ∧
        Frame.Finished context.secret context.stream context.role limit (framesOf records)
          (held s'.device) ∧
        ∀ {κ τ : Type} {recogniser : Recogniser κ} {receiver : RecordReceiver τ}
            {r : Receiving κ τ ρ} {origin : Route} {after : κ} {mailbox : τ}, r.used = false →
          left r.device = (held s'.device).take k →
          (Tag.length ≤ k → recogniser.recognise tag r.recogniser =
            (.ok (some { context with route := origin, role := context.role.peer }), after)) →
          receiver.receiveAll origin.contact
            (records.take (Frame.inside (k - Tag.length) (framesOf records)).length) r.mailbox =
              (.ok (), mailbox) →
          ∃ fault r' device, r.receive recogniser receiver reader = (.error fault, r') ∧
            fault = .connection .truncated ∧ fault.isCorruption = true ∧ r'.mailbox = mailbox ∧
            r'.device = (reader.dispose true (decide (Tag.length ≤ k)) device).2 ∧
            ∀ {α : Type} {part : ρ → α}, reader.source.Spares part →
              part device = part r.device := by
  refine ⟨fun finished => finished.read_of_cut yields limits, ?_⟩
  intro σ δ source writer held route s s' length count faithful rfl empty sent cut
  have some : held s'.device ≠ [] := List.ne_nil_of_length_pos (by omega)
  obtain ⟨context, records, asked, size, finished⟩ :=
    Sending.finished_of_send faithful empty sent some
  obtain ⟨tag, key, spelled⟩ := finished.spelled some
  refine ⟨context, tag, records, asked, spelled.tagged, size, finished, ?_⟩
  intro κ τ recogniser receiver r origin after mailbox unused given recognised taken
  obtain ⟨r', device, received, delivered, released, untouched⟩ :=
    Receiving.receive_of_cut yields spelled limits cut unused given recognised taken
  exact ⟨_, r', device, received, rfl, rfl, delivered, released, untouched⟩

open Exchange (conversing) in
/-- A message is sent, and the connection is cut between its frame and the final one. -/
theorem whole_frames_of_cut_between :
    let sender := conversing.sender.party.mailbox.queue ⟨2⟩ [109]
    let recogniser : Recogniser Context :=
      { recognise := fun _ context => (.ok (some context), context) }
    let receiver : RecordReceiver (List Record) :=
      { receive := fun _ record log => (.ok (), log ++ [record]) }
    ∃ s' context record, Sending.send Mailbox.source (Memory.writingEnd {} 1000) ⟨⟨2⟩, ⟨0⟩⟩
        { mailbox := sender.2, device := {} } = (.ok (.completed 108 1), s') ∧
      (∃ tag device r,
        Tag.read (Memory.source {}) { rest := s'.device.bytes.take 72 } = (.ok tag, device) ∧
        FrameReader.FailsWith (Memory.source {}) r [record.encode] .truncated) ∧
      ∃ fault r', Receiving.receive recogniser receiver (Memory.readingEnd {})
          { recogniser := context, mailbox := [], device := { rest := s'.device.bytes.take 72 } } =
            (.error fault, r') ∧
        fault.isCorruption = true ∧ r'.mailbox = [record] ∧
        r'.device.disposals = [(true, true)] := by
  intro sender recogniser receiver
  let s : Sending Mailbox Memory.Outbound := { mailbox := sender.2, device := {} }
  obtain ⟨s', done, size⟩ : ∃ s', s.send Mailbox.source (Memory.writingEnd {} 1000) ⟨⟨2⟩, ⟨0⟩⟩ =
      (.ok (.completed 108 1), s') ∧ s'.device.bytes.length = 108 :=
    ⟨_, eq_of_toOption (by decide +kernel), by decide +kernel⟩
  have cut : 72 < s'.device.bytes.length := by
    rw [size]
    decide
  have some : s'.device.bytes ≠ [] := List.ne_nil_of_length_pos (Nat.zero_lt_of_lt cut)
  have empty : s.device.bytes = [] := rfl
  obtain ⟨frames, records⟩ := @whole_frames_of_cut _ Memory.Inbound.rest (Memory.readingEnd {})
    (Memory.source_yields Memory.ReadLimits.harmless_default) Frame.maxLength (Nat.le_refl _) 72
  obtain ⟨context, tag, written, -, -, count, finished, received⟩ :=
    records (Memory.writingEnd_faithful {} 1000 Frame.maxLength) rfl empty done cut
  obtain ⟨record, rfl⟩ := List.length_eq_one_iff.mp count
  obtain ⟨_, key, spelled⟩ := finished.spelled some
  have single : Frame.inside (72 - Tag.length) (framesOf [record]) = [(record.encode, false)] := by
    have total := congrArg List.length spelled.bytes
    rw [size, List.length_append, Block.length_toBytes, Frame.length_bytesFrom] at total
    simp only [framesOf, Frame.ofRecords, List.map_cons, List.map_nil, List.singleton_append,
      Frame.totalCost, Frame.overhead, List.length_nil] at total ⊢
    have length : record.encode.length = 20 := by omega
    simp [Frame.inside, Frame.overhead, Tag.length, length]
  let cutShort : Memory.Inbound := { rest := s'.device.bytes.take 72 }
  have given : cutShort.rest = s'.device.bytes.take 72 := rfl
  have read := frames finished cut given
  rw [if_neg (by decide), single] at read
  obtain ⟨tag', device, r, -, front, -, fails⟩ := read
  let start : Receiving Context (List Record) Memory.Inbound :=
    { recogniser := { context with role := context.role.peer }, mailbox := [], device := cutShort }
  have unused : start.used = false := rfl
  have taken : receiver.receiveAll context.route.contact
      ([record].take (Frame.inside (72 - Tag.length) (framesOf [record])).length) start.mailbox =
        (.ok (), [record]) := by
    rw [single]
    rfl
  obtain ⟨fault, r', device', answer, -, corrupt, log, released, untouched⟩ :=
    @received _ _ recogniser receiver start context.route _ _ unused given (fun _ => rfl) taken
  refine ⟨s', _, record, done, ⟨tag', device, r, front, fails⟩, fault, r', answer, corrupt, log,
    ?_⟩
  have untold : device'.disposals = [] := untouched (Memory.source_spares {})
  rw [released]
  simp [Memory.readingEnd, untold, Tag.length]

end Session

end Courier
