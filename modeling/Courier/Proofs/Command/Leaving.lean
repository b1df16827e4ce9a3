import Courier.Proofs.Command.Running
import Courier.Proofs.Depot.Naming
import Courier.Proofs.Session.Posting

/-! # Leaving connections at a depot

A party that is ready to send leaves its queue connection by connection, as long
as names do not run out. Each connection takes at least one message if every
message fits in a connection of its own, so there are no more connections than
messages, and none is left of the queue. If not even a tag and two frames fit, or
no message does, the first connection leaves no file and nothing is sent.
-/

namespace Courier.Command

open Session (SendOutcome)

variable {depot : Depot} {contact : ContactId} {party party' : Party} {device : Memory.Outbound}
  {outcome : SendOutcome} {s : Shelf} (lines : List String)

/-- An abandoned connection, and one without bytes, leave no file. -/
theorem runs_leave_nothing (running : depot.running = true) (varied : s.Varied)
    (few : s.files.entries.length ≤ Shelf.mostNames)
    (sent : party.send ⟨contact, onlyTransport⟩ (Memory.writingEnd {} depot.capacity) {} =
      (.ok outcome, device, party'))
    (nothing : outcome.isCompleted = false ∨ device.bytes = []) :
    ∃ after, Runs (leave depot contact party) lines s (.ok (outcome, party')) lines after ∧
      after.files = s.files ∧ after.Varied := by
  obtain ⟨d, between, deposited, made⟩ := Depot.run_deposit_of_varied running varied few
  obtain ⟨disposed, -⟩ := Party.disposed_of_send sent
  have told : device.disposed.getD true = !outcome.isCompleted := by
    rw [disposed]
    rfl
  have lost : (!outcome.isCompleted) = true ∨ device.bytes = [] :=
    nothing.imp_left fun aborted => by rw [aborted]; rfl
  obtain ⟨answer, released⟩ := made.dispose_nothing lost
  refine ⟨{ between with files := s.files }, ?_, rfl, made.varied⟩
  rw [leave]
  refine (Runs.lift deposited lines).bind ((Runs.orFail_ok _ lines between).bind ?_)
  simp only [sent, told]
  exact (Runs.lift released lines).bind ((Runs.orFail_ok _ lines _).bind (.pure _ lines _))

/-- A completed connection with bytes is left as a new file. -/
theorem runs_leave_something (running : depot.running = true) (varied : s.Varied)
    (few : s.files.entries.length < Shelf.mostNames)
    (sent : party.send ⟨contact, onlyTransport⟩ (Memory.writingEnd {} depot.capacity) {} =
      (.ok outcome, device, party'))
    (completed : outcome.isCompleted = true) (some : device.bytes ≠ []) :
    ∃ after path, Runs (leave depot contact party) lines s (.ok (outcome, party')) lines after ∧
      Depot.IsConnection depot.directory path ∧ s.files.find? path = none ∧
      after.files = s.files.insert path device.bytes ∧ after.Varied := by
  obtain ⟨d, between, deposited, made⟩ :=
    Depot.run_deposit_of_varied running varied (Nat.le_of_lt few)
  obtain ⟨disposed, -⟩ := Party.disposed_of_send sent
  have told : device.disposed.getD true = false := by
    rw [disposed, Option.getD_some, Session.Sending.completes, completed]
    rfl
  obtain ⟨answer, after, path, released, connection, free, files, varied⟩ :=
    made.dispose_something some few
  refine ⟨after, path, ?_, connection, free, files, varied⟩
  rw [leave]
  refine (Runs.lift deposited lines).bind ((Runs.orFail_ok _ lines between).bind ?_)
  simp only [sent, told]
  exact (Runs.lift released lines).bind ((Runs.orFail_ok _ lines _).bind (.pure _ lines _))

/-! ## Leaving the whole queue -/

/-- The files are connections of the directory, with these contents. -/
structure Stocked (directory : String) (contents : List Bytes) (s : Shelf) : Prop where
  connections : ∀ path ∈ s.files.keys, Depot.IsConnection directory path
  contents : (s.files.entries.map (·.2)).Perm contents

theorem Stocked.insert {directory path : String} {contents : List Bytes} {s after : Shelf}
    {bytes : Bytes} (stocked : Stocked directory contents s)
    (connection : Depot.IsConnection directory path) (free : s.files.find? path = none)
    (files : after.files = s.files.insert path bytes) :
    Stocked directory (bytes :: contents) after := by
  have entries : after.files.entries.Perm ((path, bytes) :: s.files.entries) :=
    files ▸ Table.perm_insert free bytes
  refine ⟨fun other member => ?_, (entries.map _).trans (stocked.contents.cons bytes)⟩
  rcases List.mem_cons.mp ((entries.map (·.1)).mem_iff.mp member) with rfl | before
  · exact connection
  · exact stocked.connections other before

/-- Some of the connections are still there. -/
theorem Stocked.sublist {directory : String} {contents : List Bytes} {s after : Shelf}
    (stocked : Stocked directory contents s)
    (fewer : after.files.entries.Sublist s.files.entries) :
    ∃ rest, Stocked directory rest after ∧ ∀ bytes ∈ rest, bytes ∈ contents := by
  refine ⟨after.files.entries.map (·.2), ⟨fun path member => ?_, .refl _⟩, fun bytes member => ?_⟩
  · exact stocked.connections path ((fewer.map _).subset member)
  · exact stocked.contents.mem_iff.mp ((fewer.map _).subset member)

/-- No connection at the depot is longer than its capacity. -/
def Within (capacity : Nat) (s : Shelf) : Prop :=
  ∀ path bytes, s.files.find? path = some bytes → bytes.length ≤ capacity

theorem Stocked.within {directory : String} {contents : List Bytes} {capacity : Nat} {s : Shelf}
    (stocked : Stocked directory contents s)
    (within : ∀ bytes ∈ contents, bytes.length ≤ capacity) : Within capacity s := by
  intro path bytes found
  have member := List.mem_map_of_mem (f := (·.2)) ((Table.find?_eq_some_iff ..).mp found)
  exact within bytes (stocked.contents.mem_iff.mp member)

/-- The letters that a queue was sent in, from a stream on. -/
structure Consigned (secret : Secret) (sender : Role) (first capacity : Nat) (queued : List Bytes)
    (letters : List Letter) : Prop where
  posted : ∀ letter ∈ letters, letter.Posted secret sender
  streams : letters.map (·.stream) = List.range' first letters.length
  within : ∀ letter ∈ letters, letter.bytes.length ≤ capacity
  batches : ∀ letter ∈ letters, ∀ record ∈ letter.records,
    ∃ batch, record = .batch batch ∧ batch.messages ≠ []
  messages : (letters.flatMap (·.records)).flatMap Record.messages = queued

/-- What is printed about a letter that was left. -/
def leftLine (letter : Letter) : String :=
  s!"alice -> bob: {letter.records.length} records in {letter.bytes.length} bytes"

theorem Consigned.nil (secret : Secret) (sender : Role) (first capacity : Nat) :
    Consigned secret sender first capacity [] [] :=
  ⟨by simp, rfl, by simp, by simp, rfl⟩

theorem Consigned.cons {secret : Secret} {sender : Role} {first capacity : Nat}
    {queued rest : List Bytes} {letter : Letter} {letters : List Letter}
    (posted : letter.Posted secret sender) (stream : letter.stream = first)
    (within : letter.bytes.length ≤ capacity)
    (batches : ∀ record ∈ letter.records, ∃ batch, record = .batch batch ∧ batch.messages ≠ [])
    (split : queued = letter.records.flatMap Record.messages ++ rest)
    (others : Consigned secret sender (first + 1) capacity rest letters) :
    Consigned secret sender first capacity queued (letter :: letters) where
  posted := List.forall_mem_cons.mpr ⟨posted, others.posted⟩
  streams := by
    rw [List.map_cons, others.streams, stream]
    rfl
  within := List.forall_mem_cons.mpr ⟨within, others.within⟩
  batches := List.forall_mem_cons.mpr ⟨batches, others.batches⟩
  messages := by rw [List.flatMap_cons, List.flatMap_append, others.messages, split]

namespace Consigned

variable {secret : Secret} {sender : Role} {first capacity : Nat} {queued : List Bytes}
  {letters : List Letter}

/-- Each record takes a message. -/
theorem length_records_le (consigned : Consigned secret sender first capacity queued letters) :
    (letters.flatMap (·.records)).length ≤ queued.length := by
  rw [← consigned.messages]
  refine Record.length_le_messages fun record member => ?_
  obtain ⟨letter, its, member⟩ := List.mem_flatMap.mp member
  exact consigned.batches letter its record member

/-- Each letter takes a message. -/
theorem length_le (consigned : Consigned secret sender first capacity queued letters) :
    letters.length ≤ queued.length := by
  refine Nat.le_trans ?_ consigned.length_records_le
  rw [List.length_flatMap, ← List.length_map fun letter => letter.records.length]
  refine List.length_le_sum_of_one_le _ fun count member => ?_
  obtain ⟨letter, its, rfl⟩ := List.mem_map.mp member
  exact List.length_pos_iff.mpr (consigned.posted letter its).records_ne_nil

theorem stream_lt (consigned : Consigned secret sender first capacity queued letters)
    {letter : Letter} (member : letter ∈ letters) : letter.stream < first + queued.length := by
  have its : letter.stream ∈ letters.map (·.stream) := List.mem_map_of_mem member
  rw [consigned.streams, List.mem_range'_1] at its
  have few := consigned.length_le
  omega

end Consigned

theorem runs_leaveAll_of_empty {c : Conversation}
    (known : party.mailbox.conversation? contact = some c) (empty : c.queued = [])
    (fuel sent : Nat) :
    Runs (leaveAll depot contact fuel sent party) lines s (.ok (sent, party)) lines s := by
  cases fuel with
  | zero => exact .pure _ lines s
  | succ fuel =>
      have count : party.mailbox.queuedCount contact = 0 := by
        simp [Mailbox.queuedCount, known, empty]
      rw [leaveAll, if_pos count]
      exact .pure _ lines s

theorem queuedCount_ne_zero {c : Conversation}
    (known : party.mailbox.conversation? contact = some c) (some : c.queued ≠ []) :
    party.mailbox.queuedCount contact ≠ 0 := by
  simp [Mailbox.queuedCount, known, some]

variable {lines} in
/-- One connection with records is left, and then those of the rest. -/
theorem runs_leaveAll_of_left {fuel sent bytes records : Nat} {c : Conversation}
    {between after : Shelf} {lines' : List String} {answer : Except Failure (Nat × Party)}
    (known : party.mailbox.conversation? contact = some c) (some : c.queued ≠ [])
    (left : Runs (leave depot contact party) lines s (.ok (.completed bytes records, party')) lines
      between) (carried : 0 < records)
    (rest : Runs (leaveAll depot contact fuel (sent + 1) party')
      (lines ++ [s!"alice -> bob: {records} records in {bytes} bytes"]) between answer lines'
      after) :
    Runs (leaveAll depot contact (fuel + 1) sent party) lines s answer lines' after := by
  obtain ⟨count, rfl⟩ := Nat.exists_eq_add_one.mpr carried
  rw [leaveAll, if_neg (queuedCount_ne_zero known some)]
  exact left.bind ((Runs.say _ lines between).bind rest)

/-- The queue of a party can be left at a depot: each message fits in a connection of its own, and
    there are streams and names for as many connections as messages. -/
structure CanLeave (depot : Depot) (contact : ContactId) (secret : Secret) (role : Role)
    (next : Nat) (c : Conversation) (party : Party) (s : Shelf) : Prop where
  ready : party.Ready ⟨contact, onlyTransport⟩ secret role next c
  owes : c.acksOwed = []
  wide : c.queued ≠ [] → Frame.minConnectionLength ≤ depot.capacity
  fits : ∀ message ∈ c.queued, (Record.batch ⟨[message]⟩).encode.length ≤
    Session.roomFor depot.capacity Frame.maxLength []
  range : next + c.queued.length ≤ maxContext
  room : s.files.entries.length + c.queued.length ≤ Shelf.mostNames
  varied : s.Varied

section

variable {secret : Secret} {role : Role} {next : Nat} {c : Conversation} {contents : List Bytes}

/-- A letter with the front of the queue is left, and then the rest can be. -/
theorem CanLeave.runs_leave (can : CanLeave depot contact secret role next c party s)
    (running : depot.running = true) (works : secret.Works role) (some : c.queued ≠ [])
    (stocked : Stocked depot.directory contents s) :
    ∃ (letter : Letter) (party' : Party) (c' : Conversation) (after : Shelf),
      Runs (leave depot contact party) lines s
        (.ok (.completed letter.bytes.length letter.records.length, party')) lines after ∧
      letter.Posted secret role ∧ letter.stream = next ∧ letter.bytes.length ≤ depot.capacity ∧
      (∀ record ∈ letter.records, ∃ batch, record = .batch batch ∧ batch.messages ≠ []) ∧
      c.queued = letter.records.flatMap Record.messages ++ c'.queued ∧
      CanLeave depot contact secret role (next + 1) c' party' after ∧
      party'.roster = party.roster ∧ Stocked depot.directory (letter.bytes :: contents) after := by
  obtain ⟨ready, owes, wide, fits, range, room, varied⟩ := can
  let records := Session.Bulk.batches.records depot.capacity Frame.maxLength [] c.queued
  have packs : Session.packed depot.capacity Frame.maxLength ⟨[], [], c.acksOwed, c.queued⟩ =
      records := by
    rw [Session.packed_of_items, owes, (Session.Bulk.records_of_nil rfl).1]
    rfl
  have batches : ∀ record ∈ records, ∃ batch, record = .batch batch ∧ batch.messages ≠ [] :=
    fun record => Session.Bulk.eq_batch_of_mem
  have carried : records ≠ [] := Session.Bulk.records_ne_nil some fits
  have few : records.length ≤ c.queued.length := Session.Bulk.length_records_le ..
  have positive := List.length_pos_iff.mpr some
  obtain ⟨device, party', sent, within, -, goes⟩ := ready.send_wide works (by omega) (wide some)
    packs (by rw [Frame.maxNumber]; omega)
  obtain ⟨posted, c', ready', hands⟩ := goes carried
  obtain ⟨after, path, left, connection, free, files, varied'⟩ :=
    runs_leave_something lines running varied (by omega) sent rfl posted.bytes_ne_nil
  have split : c.queued = records.flatMap Record.messages ++ c'.queued := hands.queued
  have shorter : c'.queued.length < c.queued.length := by
    have takes := Record.length_le_messages batches
    have carried := List.length_pos_iff.mpr carried
    rw [split, List.length_append]
    omega
  have more : after.files.entries.length = s.files.entries.length + 1 := by
    rw [files, (Table.perm_insert free device.bytes).length_eq, List.length_cons]
  refine ⟨⟨next, device.bytes, records⟩, party', c', after, left, posted, rfl, within, batches,
    split, ?_, (Party.disposed_of_send sent).2, stocked.insert connection free files⟩
  constructor
  case ready => exact ready'
  case owes => exact (List.append_eq_nil_iff.mp (hands.owed.symm.trans owes)).2
  case wide => exact fun _ => wide some
  case fits => exact fun message member => fits message (split ▸ List.mem_append_right _ member)
  case range => omega
  case room => omega
  case varied => exact varied'

/-- The whole queue is left at the depot, letter by letter. -/
theorem runs_leaveAll (running : depot.running = true) (works : secret.Works role)
    (fuel sent : Nat) (can : CanLeave depot contact secret role next c party s)
    (enough : c.queued.length ≤ fuel) (stocked : Stocked depot.directory contents s) :
    ∃ letters party' c' after, Runs (leaveAll depot contact fuel sent party) lines s
        (.ok (sent + letters.length, party')) (lines ++ letters.map leftLine) after ∧
      party'.Ready ⟨contact, onlyTransport⟩ secret role (next + letters.length) c' ∧
      c'.queued = [] ∧ party'.roster = party.roster ∧
      Consigned secret role next depot.capacity c.queued letters ∧
      Stocked depot.directory (letters.reverse.map (·.bytes) ++ contents) after ∧
      after.Varied := by
  induction fuel generalizing sent next c contents party s lines with
  | zero =>
      have none : c.queued = [] := List.eq_nil_of_length_eq_zero (Nat.le_zero.mp enough)
      refine ⟨[], party, c, s, ?_, can.ready, none, rfl, none ▸ .nil .., stocked, can.varied⟩
      simpa using runs_leaveAll_of_empty lines can.ready.known none 0 sent
  | succ fuel ih =>
      by_cases none : c.queued = []
      · refine ⟨[], party, c, s, ?_, can.ready, none, rfl, none ▸ .nil .., stocked, can.varied⟩
        simpa using runs_leaveAll_of_empty lines can.ready.known none (fuel + 1) sent
      · obtain ⟨letter, party', c', between, left, posted, stream, within, batches, split, can',
          same, stocked'⟩ := can.runs_leave lines running works none stocked
        have carried : 0 < letter.records.length := List.length_pos_iff.mpr posted.records_ne_nil
        have enough' : c'.queued.length ≤ fuel := by
          have takes := Record.length_le_messages batches
          rw [split, List.length_append] at enough
          omega
        obtain ⟨letters, last, c'', after, rest, ready, done, roster, consigned, stocked'',
            varied⟩ := ih (lines ++ [leftLine letter]) (sent + 1) can' enough' stocked'
        have whole := runs_leaveAll_of_left can.ready.known none left carried rest
        have count (n : Nat) : n + (letter :: letters).length = n + 1 + letters.length := by
          rw [List.length_cons]
          omega
        refine ⟨letter :: letters, last, c'', after, ?_, ?_, done, roster.trans same,
          .cons posted stream within batches split consigned, ?_, varied⟩
        · rw [count, List.map_cons, List.append_cons]
          exact whole
        · rw [count]
          exact ready
        · rw [List.reverse_cons, List.map_append, List.append_assoc]
          exact stocked''

end

/-! ## Failing at the first message -/

/-- In a narrow depot the first connection is abandoned. -/
theorem runs_leaveAll_narrow {secret : Secret} {role : Role} {next : Nat} {c : Conversation}
    (running : depot.running = true) (fuel sent : Nat)
    (narrow : depot.capacity < Frame.minConnectionLength)
    (ready : party.Ready ⟨contact, onlyTransport⟩ secret role next c) (some : c.queued ≠ [])
    (enough : c.queued.length ≤ fuel) (range : next ≤ maxContext) (varied : s.Varied)
    (room : s.files.entries.length ≤ Shelf.mostNames) :
    ∃ after, Runs (leaveAll depot contact fuel sent party) lines s
        (.error (.aborted .insufficientCapacity)) lines after ∧ after.files = s.files := by
  obtain ⟨device, party', sent'⟩ := ready.send_narrow range narrow
  obtain ⟨after, left, files, -⟩ :=
    runs_leave_nothing lines running varied room sent' (.inl rfl)
  obtain ⟨more, rfl⟩ := Nat.exists_eq_add_one.mpr
    (Nat.lt_of_lt_of_le (List.length_pos_iff.mpr some) enough)
  refine ⟨after, ?_, files⟩
  rw [leaveAll, if_neg (queuedCount_ne_zero ready.known some)]
  exact left.bind (.throw _ lines after)

/-- A first message that is too large leaves a connection without records. -/
theorem runs_leaveAll_large {secret : Secret} {role : Role} {next : Nat} {c : Conversation}
    (running : depot.running = true) (works : secret.Works role) (fuel sent : Nat)
    (wide : Frame.minConnectionLength ≤ depot.capacity)
    (ready : party.Ready ⟨contact, onlyTransport⟩ secret role next c) (owes : c.acksOwed = [])
    (some : c.queued ≠ []) (enough : c.queued.length ≤ fuel)
    (large : ∀ message ∈ c.queued, Session.roomFor depot.capacity Frame.maxLength [] <
      (Record.batch ⟨[message]⟩).encode.length)
    (range : next ≤ maxContext) (varied : s.Varied)
    (room : s.files.entries.length ≤ Shelf.mostNames) :
    ∃ after, Runs (leaveAll depot contact fuel sent party) lines s
        (.error .messageTooLarge) lines after ∧ after.files = s.files := by
  have packs : Session.packed depot.capacity Frame.maxLength ⟨[], [], c.acksOwed, c.queued⟩ =
      [] := by
    rw [Session.packed_of_items, owes, (Session.Bulk.records_of_nil rfl).1]
    exact Session.Bulk.records_eq_nil large
  obtain ⟨device, party', sent', -, nothing, -⟩ :=
    ready.send_wide works range wide packs (Nat.zero_le _)
  obtain ⟨after, left, files, -⟩ :=
    runs_leave_nothing lines running varied room sent' (.inr (nothing rfl))
  obtain ⟨more, rfl⟩ := Nat.exists_eq_add_one.mpr
    (Nat.lt_of_lt_of_le (List.length_pos_iff.mpr some) enough)
  refine ⟨after, ?_, files⟩
  rw [leaveAll, if_neg (queuedCount_ne_zero ready.known some)]
  exact left.bind (.throw _ lines after)

/-! ## Leaving one connection of acknowledgements -/

/-- Whatever the capacity is, one connection of acknowledgements is left, or none. -/
theorem runs_leave_answer {secret : Secret} {role : Role} {next : Nat} {c : Conversation}
    {contents : List Bytes} (running : depot.running = true) (works : secret.Works role)
    (ready : party.Ready ⟨contact, onlyTransport⟩ secret role next c) (empty : c.queued = [])
    (few : c.acksOwed.length ≤ maxContext) (range : next ≤ maxContext) (varied : s.Varied)
    (room : s.files.entries.length < Shelf.mostNames)
    (stocked : Stocked depot.directory contents s) :
    ∃ outcome party' after, Runs (leave depot contact party) lines s (.ok (outcome, party')) lines
        after ∧
      (Stocked depot.directory contents after ∨ ∃ letter : Letter, letter.Posted secret role ∧
        letter.stream = next ∧ letter.bytes.length ≤ depot.capacity ∧
        Stocked depot.directory (letter.bytes :: contents) after) := by
  by_cases narrow : depot.capacity < Frame.minConnectionLength
  · obtain ⟨device, party', sent⟩ := ready.send_narrow range narrow
    obtain ⟨after, left, files, -⟩ :=
      runs_leave_nothing lines running varied (Nat.le_of_lt room) sent (.inl rfl)
    exact ⟨_, party', after, left, .inl ⟨files ▸ stocked.connections, files ▸ stocked.contents⟩⟩
  · let records := Session.packed depot.capacity Frame.maxLength ⟨[], [], c.acksOwed, c.queued⟩
    have fewRecords : records.length ≤ Frame.maxNumber := by
      have most : records.length ≤ c.acksOwed.length + c.queued.length :=
        Session.length_packed_le ..
      rw [empty, List.length_nil, Nat.add_zero] at most
      exact Nat.le_trans most few
    have packs : Session.packed depot.capacity Frame.maxLength ⟨[], [], c.acksOwed, c.queued⟩ =
        records := rfl
    obtain ⟨device, party', sent, within, nothing, goes⟩ :=
      ready.send_wide works range (Nat.not_lt.mp narrow) packs fewRecords
    by_cases none : records = []
    · obtain ⟨after, left, files, -⟩ := runs_leave_nothing lines running varied
        (Nat.le_of_lt room) sent (.inr (nothing none))
      exact ⟨_, party', after, left, .inl ⟨files ▸ stocked.connections, files ▸ stocked.contents⟩⟩
    · obtain ⟨posted, -⟩ := goes none
      obtain ⟨after, path, left, connection, free, files, -⟩ :=
        runs_leave_something lines running varied room sent rfl posted.bytes_ne_nil
      exact ⟨_, party', after, left, .inr ⟨_, posted, rfl, within,
        stocked.insert connection free files⟩⟩

end Courier.Command
