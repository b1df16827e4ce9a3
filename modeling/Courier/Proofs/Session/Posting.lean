import Courier.Proofs.Session.Fullness
import Courier.Proofs.Session.Release
import Courier.Proofs.Session.Reordering

/-! # Posting what waits

A party with a usable lane sends what waits for a contact into memory, and the
end tells whether the connection was completed. Below the least capacity the
session is abandoned. Else it is completed, with the records that there is room
for, and they are a letter on the next stream of the lane.
-/

namespace Courier

open Session (SendOutcome)

namespace Session.Sending

variable {σ : Type} {source : RecordSource σ} {route : Route}

/-- Sending into memory touches nothing but the bytes before the end is released. -/
theorem disposals_of_run {s : Sending σ Memory.Outbound} {capacity : Nat}
    (fresh : s.device = {}) :
    (s.run source (Memory.writingEnd {} capacity) route).2.device.disposals = [] := by
  let held : Gathered → Memory.Outbound := fun gathered => { gathered }
  let plain : WritingEnd Gathered :=
    { capacity
      maxFrameLength := Frame.maxLength
      sink := ⟨fun data held => (.ok data.length, held.add data), fun held => (.ok (), held)⟩
      dispose := fun _ held => (.ok (), held) }
  let writer : WritingEnd Memory.Outbound :=
    { Memory.writingEnd {} capacity with dispose := fun _ out => (.ok (), out) }
  have same : source.Maps id source :=
    ⟨fun _ _ => rfl, fun _ _ => rfl, fun _ _ => rfl, fun _ _ _ => rfl, fun _ _ _ => rfl,
      fun _ _ _ => rfl⟩
  have writers : plain.Maps held writer :=
    ⟨rfl, rfl, ⟨fun _ _ => rfl, fun _ => rfl⟩, fun _ _ => rfl⟩
  let before : Sending σ Gathered := { mailbox := s.mailbox, device := .empty, phase := s.phase }
  have begun : before.map id held = s := by
    obtain ⟨mailbox, device, phase⟩ := s
    obtain rfl : device = {} := fresh
    rfl
  have mapped : (before.map id held).run source writer route =
      Prod.map id (·.map id held) (before.run source plain route) := run_mapped same writers before
  rw [begun] at mapped
  have run_eq : s.run source (Memory.writingEnd {} capacity) route = s.run source writer route :=
    rfl
  rw [run_eq, mapped]
  rfl

end Session.Sending

/-! ## What is packed of acknowledgements and messages -/

/-- Batches with messages are no more than these. -/
theorem Record.length_le_messages {records : List Record}
    (batches : ∀ record ∈ records, ∃ batch, record = .batch batch ∧ batch.messages ≠ []) :
    records.length ≤ (records.flatMap Record.messages).length := by
  rw [List.length_flatMap, ← List.length_map fun record => (Record.messages record).length]
  refine List.length_le_sum_of_one_le _ fun count member => ?_
  obtain ⟨record, its, rfl⟩ := List.mem_map.mp member
  obtain ⟨batch, rfl, some⟩ := batches record its
  exact List.length_pos_iff.mpr some

namespace Session

namespace Bulk

variable {α : Type} {bulk : Bulk α} {capacity limit : Nat} {before : List Record} {items : List α}

/-- Something is packed if the first item fits. -/
theorem records_ne_nil (some : items ≠ [])
    (fits : ∀ item ∈ items,
      (bulk.record [item]).encode.length ≤ roomFor capacity limit before) :
    bulk.records capacity limit before items ≠ [] := by
  have taken : bulk.part (roomFor capacity limit before) items ≠ [] := by
    intro none
    have first : items.head some ∈ items.head? := List.head?_eq_some_head some
    exact absurd (fits _ (List.head_mem some)) (Nat.not_le.mpr (lt_of_part_eq_nil none _ first))
  rw [(records_of_some taken).1]
  exact List.cons_ne_nil _ _

/-- Nothing is packed if no item fits. -/
theorem records_eq_nil
    (large : ∀ item ∈ items,
      roomFor capacity limit before < (bulk.record [item]).encode.length) :
    bulk.records capacity limit before items = [] := by
  refine (records_of_nil (Classical.byContradiction fun taken => ?_)).1
  have fits := length_part_le taken
  have whole := bulk.part_append_drop (roomFor capacity limit before) items
  generalize bulk.part (roomFor capacity limit before) items = part at taken fits whole
  obtain ⟨item, rest, rfl⟩ := List.exists_cons_of_ne_nil taken
  have member : item ∈ items := by
    rw [← whole]
    exact List.mem_append_left _ List.mem_cons_self
  have alone := large item member
  have head : 1 ≤ Cbor.headLength (item :: rest).length := by
    rw [Cbor.headLength]
    split_ifs <;> omega
  rw [bulk.length_encode] at alone fits
  have single : Cbor.headLength [item].length = 1 := rfl
  simp only [List.map_cons, List.sum_cons, List.map_nil, List.sum_nil] at alone fits
  omega

/-- Each record that is packed takes an item. -/
theorem length_records_le (bulk : Bulk α) (capacity limit : Nat) (before : List Record)
    (items : List α) : (bulk.records capacity limit before items).length ≤ items.length := by
  fun_induction bulk.pack capacity limit before items with
  | case1 before items none =>
      rw [(records_of_nil none).1]
      exact Nat.zero_le _
  | case2 before items some ih =>
      have less := length_drop_part_lt some
      rw [(records_of_some some).1, List.length_cons]
      omega

/-- Each record that is packed carries something. -/
theorem ne_nil_of_mem_pack {part : List α} (member : part ∈ bulk.pack capacity limit before items) :
    part ≠ [] := by
  fun_induction bulk.pack capacity limit before items with
  | case1 before items none => cases member
  | case2 before items some ih =>
      rcases List.mem_cons.mp member with rfl | later
      · exact some
      · exact ih later

theorem eq_batch_of_mem {before : List Record} {queued : List Bytes} {record : Record}
    (member : record ∈ batches.records capacity limit before queued) :
    ∃ batch, record = .batch batch ∧ batch.messages ≠ [] := by
  obtain ⟨messages, packed, rfl⟩ := List.mem_map.mp member
  exact ⟨⟨messages⟩, rfl, ne_nil_of_mem_pack packed⟩

end Bulk

/-- Without updates, acknowledgements are packed and then messages. -/
theorem packed_of_items (capacity limit : Nat) (owed : List BatchId) (queued : List Bytes) :
    packed capacity limit ⟨[], [], owed, queued⟩ =
      Bulk.acks.records capacity limit [] owed ++ Bulk.batches.records capacity limit
        (Bulk.acks.records capacity limit [] owed) queued := rfl

theorem length_packed_le (capacity limit : Nat) (owed : List BatchId) (queued : List Bytes) :
    (packed capacity limit ⟨[], [], owed, queued⟩).length ≤ owed.length + queued.length := by
  rw [packed_of_items, List.length_append]
  exact Nat.add_le_add (Bulk.length_records_le ..) (Bulk.length_records_le ..)

end Session

/-! ## Sending into memory -/

theorem Letter.Posted.records_ne_nil {secret : Secret} {sender : Role} {letter : Letter}
    (posted : letter.Posted secret sender) : letter.records ≠ [] := by
  cases posted with
  | sent faithful empty known lane side completed some carries => exact some

/-- A letter starts with its tag. -/
theorem Letter.Posted.bytes_ne_nil {secret : Secret} {sender : Role} {letter : Letter}
    (posted : letter.Posted secret sender) : letter.bytes ≠ [] := by
  obtain ⟨tag, key, -, -, spelled⟩ := posted.carries.spelled
  rw [spelled]
  refine List.append_ne_nil_of_left_ne_nil (List.ne_nil_of_length_pos ?_) _
  rw [show tag.toBytes.length = 16 from Block.length_toBytes tag]
  decide

/-- Keys that nothing is sent or read with fail for being blank. -/
structure Secret.Works (secret : Secret) (role : Role) : Prop where
  usable : secret.isBlank = false
  tagKey : ∀ key, secret.derive (.tagKey role) = .ok key → key.isBlank = false

/-- The conversation once a stream of a lane is used up. -/
def Conversation.pastStream (c : Conversation) (transport : TransportIndex) (secret : Secret)
    (stream : Nat) : Conversation :=
  { c with lanes := c.lanes.insert transport { secret, next := stream + 1 } }

namespace Party

variable {route : Route} {secret : Secret} {role : Role} {next capacity : Nat} {p p' : Party}
  {c : Conversation} {device : Memory.Outbound} {result : Except SessionFault SendOutcome}

theorem send_of_run {δ : Type} {writer : WritingEnd δ} {device : δ}
    {s : Session.Sending Mailbox δ}
    (ran : (p.sending device).run Mailbox.source writer route = (result, s)) :
    p.send route writer device =
      (result, (writer.dispose (!Session.Sending.completes result) s.device).2,
        { p with mailbox := s.mailbox }) := by
  have whole := Session.Sending.send_of_run (s := p.sending device) rfl ran
  simp only [send, whole]

/-- The end in memory is released as an exception unless the session completed. -/
theorem disposed_of_send
    (sent : p.send route (Memory.writingEnd {} capacity) {} = (result, device, p')) :
    device.disposed = some (!Session.Sending.completes result) ∧ p'.roster = p.roster := by
  rcases ran : (p.sending {}).run Mailbox.source (Memory.writingEnd {} capacity) route
    with ⟨answer, s⟩
  have untouched : s.device.disposals = [] := by
    rw [show s = (answer, s).2 from rfl, ← ran]
    exact Session.Sending.disposals_of_run rfl
  rw [send_of_run ran] at sent
  obtain ⟨rfl, rfl, rfl⟩ := sent
  exact ⟨by simp [Memory.Outbound.disposed, Memory.writingEnd, untouched], rfl⟩

/-- The party knows a conversation whose lane is at a stream, and has no updates published. -/
structure Ready (route : Route) (secret : Secret) (role : Role) (next : Nat) (c : Conversation)
    (p : Party) : Prop where
  known : p.mailbox.conversation? route.contact = some c
  side : c.role = role
  lane : c.lanes.find? route.transport = some { secret, next }
  once : c.acksOwed.Nodup
  transports : p.mailbox.transports = none
  subscriptions : p.mailbox.subscriptions = none

/-- Only acknowledgements and messages wait. -/
theorem Ready.waiting (ready : Ready route secret role next c p) :
    c.waiting p.mailbox = ⟨[], [], c.acksOwed, c.queued⟩ := by
  simp [Conversation.waiting, ready.transports, ready.subscriptions]

/-- Nothing is sent where not even a tag and two frames fit. -/
theorem Ready.send_narrow (ready : Ready route secret role next c p) (range : next ≤ maxContext)
    (narrow : capacity < Frame.minConnectionLength) :
    ∃ device p', p.send route (Memory.writingEnd {} capacity) {} =
      (.ok (.aborted .insufficientCapacity), device, p') := by
  have ran : ((p.sending {}).run Mailbox.source (Memory.writingEnd {} capacity) route).1 =
      .ok (.aborted .insufficientCapacity) := by
    have narrow : (Memory.writingEnd {} capacity).capacity < Frame.minConnectionLength := narrow
    simp only [Session.Sending.run, sending, Mailbox.source, Mailbox.context, ready.known,
      ready.lane, if_neg (Nat.not_lt.mpr range), if_pos narrow]
  rcases run : (p.sending {}).run Mailbox.source (Memory.writingEnd {} capacity) route
    with ⟨answer, s⟩
  rw [run] at ran
  obtain rfl : answer = _ := ran
  exact ⟨_, _, send_of_run run⟩

/-- A wide enough connection is filled with what there is room for, and closed. -/
theorem Ready.exists_filled (ready : Ready route secret role next c p) (works : secret.Works role)
    (range : next ≤ maxContext) (wide : Frame.minConnectionLength ≤ capacity)
    {records : List Record}
    (packs : Session.packed capacity Frame.maxLength ⟨[], [], c.acksOwed, c.queued⟩ = records)
    (few : records.length ≤ Frame.maxNumber) :
    ∃ begun f waiting, FrameWriter.ofContext { route, secret, stream := next, role }
        ({} : Memory.Outbound) capacity Frame.maxLength = .ok begun ∧
      Session.Filling.run Mailbox.source (Memory.sink {}) route.contact
        { mailbox :=
            p.mailbox.setConversation route.contact (c.pastStream route.transport secret next)
          frames := begun } = (.ok (), f) ∧
      f.taken = records ∧ f.frames.written = f.frames.outlet.device.bytes.length ∧
      Session.Full capacity Frame.maxLength ⟨[], [], c.acksOwed, c.queued⟩ waiting records
        f.frames.written ∧
      (p.sending {}).run Mailbox.source (Memory.writingEnd {} capacity) route =
        (.ok (.completed f.frames.outlet.device.bytes.length records.length),
          { p.sending ({} : Memory.Outbound) with
            mailbox := f.mailbox, device := f.frames.outlet.device }) := by
  obtain rfl := ready.side
  have waiting : (c.pastStream route.transport secret next).waiting p.mailbox =
      ⟨[], [], c.acksOwed, c.queued⟩ := ready.waiting
  have asked : Mailbox.source.context route (p.sending ({} : Memory.Outbound)).mailbox =
      (.ok (some { route, secret, stream := next, role := c.role }),
        p.mailbox.setConversation route.contact (c.pastStream route.transport secret next)) := by
    simp only [Mailbox.source, Mailbox.context, sending, ready.known, ready.lane,
      if_neg (Nat.not_lt.mpr range)]
    rfl
  obtain ⟨tag, tagged⟩ := FrameWriter.tag_make_of_usable works.usable range works.tagKey
  obtain ⟨key, keyed⟩ := Secret.derive_of_usable (.frameKey c.role next) works.usable range
  obtain ⟨begun, made⟩ : ∃ begun, FrameWriter.ofContext
      { route, secret, stream := next, role := c.role } ({} : Memory.Outbound) capacity
        Frame.maxLength = .ok begun :=
    ⟨_, (FrameWriter.make_eq_ok_iff ..).mpr ⟨by decide, tag, key, tagged, keyed, rfl⟩⟩
  obtain ⟨f, c', completed, mailbox, taken, bytes, full⟩ :=
    Session.Filling.run_packed (m := p.mailbox) route.contact (Memory.sink_keeps {}) rfl made
      (Memory.sink_reliable Memory.WriteLimits.harmless_default) (by rwa [waiting, packs])
  rw [waiting, packs] at taken
  rw [waiting, taken] at full
  refine ⟨begun, f, _, made, completed, taken, bytes, full, ?_⟩
  have wide : ¬ (Memory.writingEnd {} capacity).capacity < Frame.minConnectionLength :=
    Nat.not_lt.mpr wide
  have made : FrameWriter.ofContext { route, secret, stream := next, role := c.role }
    (p.sending ({} : Memory.Outbound)).device (Memory.writingEnd {} capacity).capacity
      (Memory.writingEnd {} capacity).maxFrameLength = .ok begun := made
  simp only [Session.Sending.run, asked, if_neg wide, made]
  rw [show (Memory.writingEnd {} capacity).sink = Memory.sink {} from rfl, completed, ← taken,
    ← bytes]

/-- What there is room for is sent, and nothing else. If that is anything, it is a letter, and the
    lane is at the next stream. -/
theorem Ready.send_wide (ready : Ready route secret role next c p) (works : secret.Works role)
    (range : next ≤ maxContext) (wide : Frame.minConnectionLength ≤ capacity)
    {records : List Record}
    (packs : Session.packed capacity Frame.maxLength ⟨[], [], c.acksOwed, c.queued⟩ = records)
    (few : records.length ≤ Frame.maxNumber) :
    ∃ device p', p.send route (Memory.writingEnd {} capacity) {} =
        (.ok (.completed device.bytes.length records.length), device, p') ∧
      device.bytes.length ≤ capacity ∧ (records = [] → device.bytes = []) ∧
      (records ≠ [] → Letter.Posted secret role ⟨next, device.bytes, records⟩ ∧
        ∃ c', p'.Ready route secret role (next + 1) c' ∧
          (c.pastStream route.transport secret next).Hands records c') := by
  obtain ⟨begun, f, waiting, made, completed, taken, bytes, full, ran⟩ :=
    ready.exists_filled works range wide packs few
  subst taken
  have sent := send_of_run ran
  refine ⟨((Memory.writingEnd {} capacity).dispose _ f.frames.outlet.device).2, _, sent, ?_,
    fun none => ?_, fun some => ?_⟩
  · exact bytes ▸ full.within
  · have nothing := full.bytes_eq
    rw [if_pos none, bytes] at nothing
    exact List.eq_nil_of_length_eq_zero nothing
  · have carries := Session.Filling.carries_of_run (Memory.sink_keeps {}) rfl made completed some
    refine ⟨.sent (Memory.writingEnd_faithful {} capacity Frame.maxLength) rfl ready.known
      ready.lane ready.side sent some carries, ?_⟩
    obtain ⟨last, closed, moves, -, same⟩ := Session.Filling.run_ok completed
    have nothing : Session.Filling.Handed p.mailbox route.contact
        (c.pastStream route.transport secret next)
        { mailbox :=
            p.mailbox.setConversation route.contact (c.pastStream route.transport secret next)
          frames := begun } :=
      ⟨c.pastStream route.transport secret next, rfl, .refl ready.once⟩
    obtain ⟨c', left, hands⟩ := nothing.moves moves
    rw [show last.mailbox = f.mailbox by rw [same]] at left
    rw [show last.taken = f.taken by rw [same]] at hands
    refine ⟨c', ?_, hands⟩
    constructor
    case known =>
      rw [left]
      exact Mailbox.conversation?_setConversation_self ..
    case side => exact hands.role.trans ready.side
    case lane =>
      rw [hands.lanes]
      exact Table.find?_insert_self ..
    case once => exact hands.distinct
    case transports =>
      rw [left]
      exact ready.transports
    case subscriptions =>
      rw [left]
      exact ready.subscriptions

end Party

end Courier
