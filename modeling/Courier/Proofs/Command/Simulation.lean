import Courier.Proofs.Command.Introducing

/-! # Simulations

A simulation introduces two parties, lets the first leave its whole queue at an
empty depot, and lets the second pick it up and answer. It can fail at the
first connection only: the depot is narrower than any record, or a message
longer than any connection. Else every connection is left, and the second party
goes through all of them, whatever order their random names make. What a window
holds it reads whole, and every message once.
-/

namespace Courier.Command

open Session (SendOutcome ReceiveOutcome)

/-! ## Reading in any order -/

variable {secret : Secret} {capacity : Nat} {queued : List Bytes} {letters order : List Letter}
  {outcomes : List ReceiveOutcome} {party last : Party}

theorem Consigned.filterMap_eq_nil {α : Type} {update? : Record → Option α}
    (consigned : Consigned secret .alice 0 capacity queued letters)
    (none : ∀ batch, update? (.batch batch) = none) :
    (letters.flatMap (·.records)).filterMap update? = [] := by
  refine List.filterMap_eq_nil_iff.mpr fun record member => ?_
  obtain ⟨letter, its, member⟩ := List.mem_flatMap.mp member
  obtain ⟨batch, rfl, -⟩ := consigned.batches letter its record member
  exact none batch

/-- A window's worth of letters whose batches have names of their own is a series. -/
theorem Consigned.series (consigned : Consigned secret .alice 0 capacity queued letters)
    (few : letters.length ≤ Window.defaultSize)
    (distinct : ((Record.batches (letters.flatMap (·.records))).map Batch.id).Nodup) :
    Letter.Series (.fresh Window.defaultSize 0) letters where
  streams := consigned.streams
  fits := by rwa [Window.fresh, List.length_replicate]
  unread := by
    intro letter _
    rw [(Window.fresh_holds (by decide) 0).accepted_iff]
    exact Nat.not_lt_zero _
  batches := distinct
  transports := by
    rw [consigned.filterMap_eq_nil fun _ => rfl]
    exact .nil
  subscriptions := by
    rw [consigned.filterMap_eq_nil fun _ => rfl]
    exact .nil

/-- A party that has only just met the sender reads a window's worth of letters whole, in whatever
    order, and has every message once. -/
theorem Consigned.read_whole (consigned : Consigned secret .alice 0 capacity queued letters)
    (met : Met alice secret .bob (begun secret .bob) party)
    (few : letters.length ≤ Window.defaultSize)
    (distinct : ((Record.batches (letters.flatMap (·.records))).map Batch.id).Nodup)
    (perm : order.Perm letters) (reads : party.Reads order (outcomes.map .ok) last) :
    outcomes.countP (·.isCompleted) = letters.length ∧
      (last.mailbox.received alice).Perm queued := by
  have series := consigned.series few distinct
  obtain ⟨results, all, permAll, hasRead⟩ := Party.hasRead_all met.expects met.ready.known
    (Window.fresh_holds (by decide) 0).settled series consigned.posted
    (fun _ _ _ _ => met.hears.apart _) (fun _ => perm.mem_iff) reads
  have once : order.Nodup := perm.nodup_iff.mpr (.of_map _ series.nodup_streams)
  constructor
  · have completed : outcomes =
        order.map fun letter => .completed alice letter.records.length := by
      rw [Letter.outcomes_of_nodup alice (by simpa using once)] at results
      refine List.map_injective_iff.mpr (fun _ _ => Except.ok.inj) (results.trans ?_)
      rw [List.map_map]
      rfl
    rw [completed, List.countP_map, ← perm.length_eq]
    exact List.countP_eq_length.mpr fun _ _ => rfl
  · have records : (all.flatMap (·.records)).Perm (letters.flatMap (·.records)) :=
      permAll.flatMap_right _
    have names : ((Record.batches (all.flatMap (·.records))).map Batch.id).Nodup :=
      (((records.filterMap _).map _).map _).nodup_iff.mpr distinct
    have gathers := Conversation.gathers_receiveAll (begun secret .bob) names
    have received : last.mailbox.received alice =
        (all.flatMap (·.records)).flatMap Record.messages := by
      rw [Mailbox.received, hasRead.mailbox, Mailbox.conversation?_setConversation_self,
        Option.elim_some, gathers.rest, ← Record.messages_batches]
      simp [Conversation.gathered, begun]
    rw [received, ← consigned.messages]
    exact records.flatMap_right _

/-! ## The stages -/

/-- What is printed when the second party has read. -/
def readLine (received sent : Nat) (reader : Party) : String :=
  s!"bob read {received} of {sent} connections, " ++
    s!"{(reader.mailbox.received alice).length} messages"

/-- What is printed at the end. -/
def endLine (ended : Party) : String :=
  s!"alice has {ended.mailbox.outstandingCount bob} batches awaiting acks"

/-- What each stage of a simulation ends in, once the parties were introduced. -/
structure Course where
  /-- Connections that the first party leaves, and the party after that. -/
  sent : Nat
  sender : Party
  left : Shelf
  /-- Connections that the second party reads, and the party after that. -/
  received : Nat
  reader : Party
  read : Shelf
  /-- What comes of the answer. -/
  outcome : SendOutcome
  answerer : Party
  answered : Shelf
  /-- Connections that the first party reads, and the party after that. -/
  heard : Nat
  ended : Party
  last : Shelf

namespace Course

/-- What is printed before the answer, after these lines. -/
def said (course : Course) (lines : List String) : List String :=
  lines ++ [readLine course.received course.sent course.reader]

/-- The stages go through in turn; the first of them prints these lines. -/
structure Follows (course : Course) (depot : Depot) (messages : Nat) (first second : Party)
    (s : Shelf) (lines : List String) : Prop where
  leaves : Runs (leaveAll depot bob messages 0 first) [] s (.ok (course.sent, course.sender)) lines
    course.left
  reads : Runs (pickUp depot second) lines course.left (.ok (course.received, course.reader)) lines
    course.read
  answers : Runs (leave depot alice course.reader) (course.said lines) course.read
    (.ok (course.outcome, course.answerer)) (course.said lines) course.answered
  ends : Runs (pickUp depot course.sender) (course.said lines) course.answered
    (.ok (course.heard, course.ended)) (course.said lines) course.last

/-- Every message of the queue is left in one of these letters, all of them short enough. If there
    are no more letters than a window holds, and their batches have names of their own, the second
    party reads all of them and has every message once. -/
structure Delivers (course : Course) (depot : Depot) (secret : Secret) (queued : List Bytes)
    (letters : List Letter) : Prop where
  sent : course.sent = letters.length
  emptied : course.sender.mailbox.queuedCount bob = 0
  consigned : Consigned secret .alice 0 depot.capacity queued letters
  stocked : Stocked depot.directory (letters.map (·.bytes)) course.left
  within : ∀ s ∈ [course.left, course.read, course.answered, course.last], Within depot.capacity s
  whole : letters.length ≤ Window.defaultSize →
    ((Record.batches (letters.flatMap (·.records))).map Batch.id).Nodup →
      course.received = letters.length ∧ (course.reader.mailbox.received alice).Perm queued

end Course

section

variable {directory : String} {messages messageSize : Nat} {first second : Party}
  {s between after : Shelf} {lines : List String}

/-- A simulation whose stages go through succeeds. -/
theorem runs_simulate
    (introduced : (Mint.run (introduce messages messageSize) : Shelving _).run s =
      (.ok (first, second), between)) {course : Course}
    (follows : course.Follows ⟨directory, capacity, true⟩ messages first second between lines) :
    Runs (simulate directory messages messageSize capacity) [] s (.ok ())
      (course.said lines ++ [endLine course.ended]) course.last := by
  have started : (Depot.start { directory, capacity } : Shelving _).run between =
      ((.ok (), ⟨directory, capacity, true⟩), between) := rfl
  rw [simulate]
  refine (Runs.lift introduced []).bind ((Runs.orFail_ok _ [] between).bind ?_)
  refine (Runs.lift started []).bind ((Runs.orFail_ok _ [] between).bind ?_)
  refine follows.leaves.bind (follows.reads.bind ((Runs.say _ lines course.read).bind ?_))
  exact follows.answers.bind (follows.ends.bind (Runs.say _ _ course.last))

/-- A simulation whose first stage fails does so for the same cause. -/
theorem runs_simulate_of_error
    (introduced : (Mint.run (introduce messages messageSize) : Shelving _).run s =
      (.ok (first, second), between)) {fault : Failure}
    (failed : Runs (leaveAll ⟨directory, capacity, true⟩ bob messages 0 first) [] between
      (.error fault) lines after) :
    Runs (simulate directory messages messageSize capacity) [] s (.error fault) lines after := by
  have started : (Depot.start { directory, capacity } : Shelving _).run between =
      ((.ok (), ⟨directory, capacity, true⟩), between) := rfl
  rw [simulate]
  refine (Runs.lift introduced []).bind ((Runs.orFail_ok _ [] between).bind ?_)
  refine (Runs.lift started []).bind ((Runs.orFail_ok _ [] between).bind ?_)
  exact failed.bind_error

/-- The tags of the first party are not read with the tag key of the second. -/
def Foreign (secret : Secret) (streams : Nat) : Prop :=
  ∀ stream < streams, ∀ tag key, Tag.make secret stream .alice = .ok tag →
    secret.derive (.tagKey .bob) = .ok key → tag.decode key = none

variable {depot : Depot} {c : Conversation}

/-- If every message fits, the first party leaves its whole queue at an empty depot. -/
theorem exists_left (running : depot.running = true) (works : secret.Works .alice)
    (met : Met bob secret .alice c first) (owes : c.acksOwed = [])
    (few : c.queued.length ≤ maxContext)
    (wide : c.queued ≠ [] → Frame.minConnectionLength ≤ depot.capacity)
    (fits : ∀ message ∈ c.queued, (Record.batch ⟨[message]⟩).encode.length ≤
      Session.roomFor depot.capacity Frame.maxLength [])
    (bare : s.files = .empty) (varied : s.Varied) :
    ∃ (letters : List Letter) (sender : Party) (left : Shelf),
      Runs (leaveAll depot bob c.queued.length 0 first) [] s (.ok (letters.length, sender))
        (letters.map leftLine) left ∧
      sender.Hears ⟨bob, onlyTransport⟩ secret .alice ∧ sender.mailbox.queuedCount bob = 0 ∧
      Consigned secret .alice 0 depot.capacity c.queued letters ∧
      Stocked depot.directory (letters.map (·.bytes)) left ∧ left.Varied := by
  have nothing : s.files.entries.length = 0 := by
    rw [bare]
    rfl
  have stocked : Stocked depot.directory [] s :=
    ⟨by simp [bare, Table.keys, Table.empty], by simp [bare, Table.empty]⟩
  have room : c.queued.length ≤ Shelf.mostNames := Nat.le_trans few (by decide)
  have can : CanLeave depot bob secret .alice 0 c first s :=
    ⟨met.ready, owes, wide, fits, by omega, by omega, varied⟩
  obtain ⟨letters, sender, c', left, leaves, ready, emptied, roster, consigned, stocked',
      varied'⟩ := runs_leaveAll [] running works c.queued.length 0 can (Nat.le_refl _) stocked
  refine ⟨letters, sender, left, by simpa using leaves, ?_, ?_, consigned, ?_, varied'⟩
  · exact ⟨roster ▸ met.hears.expects, ⟨c', ready.known⟩, roster ▸ met.only⟩
  · simp [Mailbox.queuedCount, show sender.mailbox.conversation? bob = _ from ready.known, emptied]
  · refine ⟨stocked'.connections, stocked'.contents.trans ?_⟩
    rw [List.append_nil]
    exact (List.reverse_perm letters).map _

/-- What the second party answers is met by the first, like all that it met before. -/
theorem exists_answered {reader : Party} {contents : List Bytes} (running : depot.running = true)
    (works : secret.Works .bob) (ready : reader.Ready ⟨alice, onlyTransport⟩ secret .bob 0 c)
    (unqueued : c.queued = []) (few : c.acksOwed.length ≤ maxContext) (varied : s.Varied)
    (room : s.files.entries.length < Shelf.mostNames)
    (stocked : Stocked depot.directory contents s)
    (meets : ∀ bytes ∈ contents,
      Party.Meets secret .alice bytes ∧ bytes.length ≤ depot.capacity) (lines : List String) :
    ∃ outcome answerer answered more, Runs (leave depot alice reader) lines s
        (.ok (outcome, answerer)) lines answered ∧ Stocked depot.directory more answered ∧
      ∀ bytes ∈ more, Party.Meets secret .alice bytes ∧ bytes.length ≤ depot.capacity := by
  obtain ⟨outcome, answerer, answered, answers, same | ⟨letter, posted, -, within, more⟩⟩ :=
    runs_leave_answer lines running works ready unqueued few (Nat.zero_le _) varied room
      stocked
  · exact ⟨outcome, answerer, answered, contents, answers, same, meets⟩
  · exact ⟨outcome, answerer, answered, _, answers, more,
      List.forall_mem_cons.mpr ⟨⟨.theirs posted.carries, within⟩, meets⟩⟩

/-- The second party meets the letters of the first. -/
theorem Consigned.theirs (consigned : Consigned secret .alice 0 capacity queued letters) :
    ∀ bytes ∈ letters.map (·.bytes), Party.Meets secret .bob bytes := by
  intro bytes member
  obtain ⟨letter, its, rfl⟩ := List.mem_map.mp member
  exact .theirs (consigned.posted letter its).carries

/-- The first party meets its own letters. -/
theorem Consigned.ours (consigned : Consigned secret .alice 0 capacity queued letters)
    (foreign : Foreign secret queued.length) :
    ∀ bytes ∈ letters.map (·.bytes),
      Party.Meets secret .alice bytes ∧ bytes.length ≤ capacity := by
  intro bytes member
  obtain ⟨letter, its, rfl⟩ := List.mem_map.mp member
  have stream := consigned.stream_lt its
  rw [Nat.zero_add] at stream
  exact ⟨.ours (consigned.posted letter its).carries (foreign letter.stream stream),
    consigned.within letter its⟩

/-- The second party goes through all letters, and is ready to answer. -/
theorem exists_read (running : depot.running = true)
    (met : Met alice secret .bob (begun secret .bob) second)
    (consigned : Consigned secret .alice 0 depot.capacity queued letters)
    (stocked : Stocked depot.directory (letters.map (·.bytes)) s) (lines : List String) :
    ∃ received reader read c,
      Runs (pickUp depot second) lines s (.ok (received, reader)) lines read ∧
      read.files.entries.Sublist s.files.entries ∧ read.draws = s.draws ∧
      reader.Ready ⟨alice, onlyTransport⟩ secret .bob 0 c ∧ c.queued = [] ∧
      c.acksOwed.length ≤ queued.length ∧
      (letters.length ≤ Window.defaultSize →
        ((Record.batches (letters.flatMap (·.records))).map Batch.id).Nodup →
          received = letters.length ∧ (reader.mailbox.received alice).Perm queued) := by
  obtain ⟨outcomes, reader, read, reads, -, fewer, draws, someOrder⟩ :=
    runs_pickUp lines running met.hears stocked consigned.theirs
  obtain ⟨order, perm, inOrder⟩ := someOrder letters (.refl _)
  obtain ⟨c, ready, unqueued, owed⟩ := inOrder.ready met.hears met.ready
    fun letter member => consigned.posted letter (perm.mem_iff.mp member)
  have fewRecords := consigned.length_records_le
  rw [← (perm.flatMap_right _).length_eq] at fewRecords
  have none : (begun secret .bob).acksOwed.length = 0 := rfl
  exact ⟨_, reader, read, c, reads, fewer, draws, ready, unqueued, by omega,
    fun few distinct => consigned.read_whole met few distinct perm inOrder⟩

/-- If every message fits, all stages go through. -/
theorem exists_course (running : depot.running = true) (works : ∀ role, secret.Works role)
    (foreign : Foreign secret c.queued.length) (met : Met bob secret .alice c first)
    (met' : Met alice secret .bob (begun secret .bob) second) (owes : c.acksOwed = [])
    (few : c.queued.length ≤ maxContext)
    (wide : c.queued ≠ [] → Frame.minConnectionLength ≤ depot.capacity)
    (fits : ∀ message ∈ c.queued, (Record.batch ⟨[message]⟩).encode.length ≤
      Session.roomFor depot.capacity Frame.maxLength [])
    (bare : s.files = .empty) (varied : s.Varied) :
    ∃ (course : Course) (letters : List Letter),
      course.Follows depot c.queued.length first second s (letters.map leftLine) ∧
        course.Delivers depot secret c.queued letters := by
  obtain ⟨letters, sender, left, leaves, hears, emptied, consigned, stocked, varied'⟩ :=
    exists_left running (works .alice) met owes few wide fits bare varied
  obtain ⟨received, reader, read, c', reads, fewer, draws, ready, unqueued, owed, whole⟩ :=
    exists_read running met' consigned stocked (letters.map leftLine)
  -- what the second party did not read is met by the first
  obtain ⟨rest, stockedRest, old⟩ := stocked.sublist fewer
  have ours := consigned.ours foreign
  have fewFiles : read.files.entries.length ≤ c.queued.length := by
    have total : left.files.entries.length = letters.length := by
      simpa using stocked.contents.length_eq
    exact Nat.le_trans fewer.length_le (total ▸ consigned.length_le)
  let said := letters.map leftLine ++ [readLine received letters.length reader]
  obtain ⟨outcome, answerer, answered, more, answers, stockedMore, meets⟩ :=
    exists_answered running (works .bob) ready unqueued (Nat.le_trans owed few)
      (varied'.of_draws draws) (Nat.lt_of_le_of_lt (Nat.le_trans fewFiles few) (by decide))
      stockedRest (fun bytes member => ours bytes (old bytes member)) said
  obtain ⟨outcomes, ended, last, ends, -, fewer', -⟩ :=
    runs_pickUp said running hears stockedMore fun bytes member => (meets bytes member).1
  obtain ⟨remains, stockedLast, older⟩ := stockedMore.sublist fewer'
  refine ⟨⟨letters.length, sender, left, received, reader, read, outcome, answerer, answered, _,
    ended, last⟩, letters, ⟨leaves, reads, answers, ends⟩, rfl, emptied, consigned, stocked, ?_,
    whole⟩
  simp only [List.forall_mem_cons, List.not_mem_nil, false_implies, implies_true, and_true]
  exact ⟨stocked.within fun bytes member => (ours bytes member).2,
    stockedRest.within fun bytes member => (ours bytes (old bytes member)).2,
    stockedMore.within fun bytes member => (meets bytes member).2,
    stockedLast.within fun bytes member => (meets bytes (older bytes member)).2⟩

/-! ## What fits -/

/-- The length of the record of one message of this size. -/
def loneLength (messageSize : Nat) : Nat :=
  (Record.batch ⟨[List.replicate messageSize 0]⟩).encode.length

theorem length_encode_lone (message : Bytes) :
    (Record.batch ⟨[message]⟩).encode.length = loneLength message.length := by
  have lone (bytes : Bytes) := Session.Bulk.batches.length_encode [bytes]
  simp only [Session.Bulk.batches, List.map_cons, List.map_nil, List.sum_cons, List.sum_nil] at lone
  rw [loneLength, lone, lone]
  simp [Batch.messageLength]

/-- A connection has room for a record besides the tag, two frames and an empty payload. -/
theorem roomFor_nil (capacity : Nat) :
    Session.roomFor capacity Frame.maxLength [] = min (capacity - 88) 16348 := by
  have cost : Frame.totalCost (Frame.ofRecords []) = 0 := rfl
  simp only [Session.roomFor, Frame.roomAfter, cost, Frame.effectiveLength, Frame.maxLength,
    Frame.overhead, Tag.length]
  omega

/-- Not even a tag and two frames fit. -/
def Narrow (messages capacity : Nat) : Prop :=
  0 < messages ∧ capacity < Frame.minConnectionLength

/-- A message of this size fits in no connection. -/
def Oversized (messages messageSize capacity : Nat) : Prop :=
  0 < messages ∧ Frame.minConnectionLength ≤ capacity ∧
    min (capacity - 88) 16348 < loneLength messageSize

theorem Narrow.not_oversized {messages messageSize capacity : Nat}
    (narrow : Narrow messages capacity) : ¬ Oversized messages messageSize capacity :=
  fun oversized => Nat.not_le.mpr narrow.2 oversized.2.1

/-- How a simulation with these messages ends. -/
inductive Ends (directory : String) (messages messageSize capacity : Nat) (secret : Secret)
    (first second : Party) (queued : List Bytes) (introduced : Shelf) :
    Except Failure Unit → List String → Shelf → Prop where
  | abandoned {lines : List String} {after : Shelf} (narrow : Narrow messages capacity)
      (bare : after.files = .empty) :
      Ends directory messages messageSize capacity secret first second queued introduced
        (.error (.aborted .insufficientCapacity)) lines after
  | tooLarge {lines : List String} {after : Shelf}
      (oversized : Oversized messages messageSize capacity) (bare : after.files = .empty) :
      Ends directory messages messageSize capacity secret first second queued introduced
        (.error .messageTooLarge) lines after
  | delivered (course : Course) (letters : List Letter) (wide : ¬ Narrow messages capacity)
      (fits : ¬ Oversized messages messageSize capacity)
      (follows : course.Follows ⟨directory, capacity, true⟩ messages first second introduced
        (letters.map leftLine))
      (delivers : course.Delivers ⟨directory, capacity, true⟩ secret queued letters) :
      Ends directory messages messageSize capacity secret first second queued introduced (.ok ())
        (course.said (letters.map leftLine) ++ [endLine course.ended]) course.last

variable (directory capacity) in
theorem exists_ends {c : Conversation}
    (introduced : (Mint.run (introduce c.queued.length messageSize) : Shelving _).run s =
      (.ok (first, second), between)) (works : ∀ role, secret.Works role)
    (foreign : Foreign secret c.queued.length) (met : Met bob secret .alice c first)
    (met' : Met alice secret .bob (begun secret .bob) second) (owes : c.acksOwed = [])
    (few : c.queued.length ≤ maxContext)
    (sizes : ∀ message ∈ c.queued, message.length = messageSize)
    (bare : between.files = .empty) (varied : between.Varied) :
    ∃ result lines after,
      Runs (simulate directory c.queued.length messageSize capacity) [] s result lines after ∧
        Ends directory c.queued.length messageSize capacity secret first second c.queued between
          result lines after := by
  have lone : ∀ message ∈ c.queued,
      (Record.batch ⟨[message]⟩).encode.length = loneLength messageSize :=
    fun message member => by rw [length_encode_lone, sizes message member]
  have room : between.files.entries.length ≤ Shelf.mostNames := by
    rw [bare]
    exact Nat.zero_le _
  have running : (⟨directory, capacity, true⟩ : Depot).running = true := rfl
  by_cases narrow : Narrow c.queued.length capacity
  · have some : c.queued ≠ [] := List.ne_nil_of_length_pos narrow.1
    obtain ⟨after, failed, files⟩ := runs_leaveAll_narrow [] running c.queued.length 0 narrow.2
      met.ready some (Nat.le_refl _) (Nat.zero_le _) varied room
    exact ⟨_, _, after, runs_simulate_of_error introduced failed,
      .abandoned narrow (files.trans bare)⟩
  · by_cases oversized : Oversized c.queued.length messageSize capacity
    · have some : c.queued ≠ [] := List.ne_nil_of_length_pos oversized.1
      have large : ∀ message ∈ c.queued, Session.roomFor capacity Frame.maxLength [] <
          (Record.batch ⟨[message]⟩).encode.length := by
        intro message member
        rw [roomFor_nil, lone message member]
        exact oversized.2.2
      obtain ⟨after, failed, files⟩ := runs_leaveAll_large [] running (works .alice)
        c.queued.length 0 oversized.2.1 met.ready owes some (Nat.le_refl _) large (Nat.zero_le _)
        varied room
      exact ⟨_, _, after, runs_simulate_of_error introduced failed,
        .tooLarge oversized (files.trans bare)⟩
    · have wide : c.queued ≠ [] → Frame.minConnectionLength ≤ capacity := fun some =>
        Nat.not_lt.mp fun below => narrow ⟨List.length_pos_iff.mpr some, below⟩
      have fits : ∀ message ∈ c.queued, (Record.batch ⟨[message]⟩).encode.length ≤
          Session.roomFor capacity Frame.maxLength [] := by
        intro message member
        rw [roomFor_nil, lone message member]
        exact Nat.not_lt.mp fun large => oversized
          ⟨List.length_pos_of_mem member, wide (List.ne_nil_of_mem member), large⟩
      obtain ⟨course, letters, follows, delivers⟩ :=
        exists_course running works foreign met met' owes few wide fits bare varied
      exact ⟨_, _, _, runs_simulate introduced follows,
        .delivered course letters narrow oversized follows delivers⟩

/-- Names that do not run out, key pairs that agree, keys that are not blank and tags that tell the
    two sides apart make a simulation over no files end in one of three ways: the first connection
    is abandoned in a narrow depot, or it is empty because a message is too large, or all stages go
    through. Each connection is within the capacity at any stage. -/
theorem simulate_ends {directory : String} {messages messageSize capacity : Nat} {s : Shelf}
    {alicePair bobPair : KeyPair} {root secret : Secret} (few : messages < 2 ^ 32)
    (bare : s.files = .empty) (varied : s.Varied)
    (drawn : ((Mint.run drawPairs).run s).1 = (some alicePair, some bobPair))
    (agrees : alicePair.AgreesWith bobPair)
    (rooted : alicePair.rootSecret bobPair.publicKey true = .ok root)
    (derived : root.derive (.transportSecret onlyTransport.number) = .ok secret)
    (works : ∀ role, secret.Works role) (foreign : Foreign secret messages) :
    ∃ first second queued introduced result lines after,
      (Mint.run (introduce messages messageSize) : Shelving _).run s =
        (.ok (first, second), introduced) ∧
      (first.mailbox.conversation? bob).map (·.queued) = some queued ∧
      queued.length = messages ∧ (∀ message ∈ queued, message.length = messageSize) ∧
      Runs (simulate directory messages messageSize capacity) [] s result lines after ∧
      Within capacity after ∧ (result ≠ .ok () → after.files = .empty) ∧
      (result = .error (.aborted .insufficientCapacity) ↔ Narrow messages capacity) ∧
      (result = .error .messageTooLarge ↔ Oversized messages messageSize capacity) ∧
      (result = .ok () ↔
        ¬ (Narrow messages capacity ∨ Oversized messages messageSize capacity)) ∧
      (result = .ok () → ∃ (course : Course) (letters : List Letter),
        course.Follows ⟨directory, capacity, true⟩ messages first second introduced
          (letters.map leftLine) ∧
        course.Delivers ⟨directory, capacity, true⟩ secret queued letters ∧
        lines = course.said (letters.map leftLine) ++ [endLine course.ended] ∧
        after = course.last) := by
  obtain ⟨first, second, c, count, introduced, met, met', rfl, sizes, owes⟩ :=
    exists_introduction drawn agrees rooted derived (works .alice).usable messages messageSize
  obtain ⟨result, lines, after, runs, ends⟩ := exists_ends capacity directory introduced works
    foreign met met' owes (Nat.le_of_lt_succ few) sizes bare (varied.skip count)
  have known : (first.mailbox.conversation? bob).map (·.queued) = some c.queued := by
    rw [show first.mailbox.conversation? bob = _ from met.ready.known, Option.map_some]
  refine ⟨first, second, c.queued, _, result, lines, after, introduced, known, rfl, sizes, runs, ?_⟩
  cases ends with
  | abandoned narrow bare =>
      have fits : ¬ Oversized c.queued.length messageSize capacity := narrow.not_oversized
      simp [narrow, fits, bare, Within]
  | tooLarge oversized bare =>
      have wide : ¬ Narrow c.queued.length capacity := fun narrow => narrow.not_oversized oversized
      simp [wide, oversized, bare, Within]
  | delivered course letters wide fits follows delivers =>
      have within := delivers.within course.last (by simp)
      exact ⟨within, by simp, by simp [wide], by simp [fits], by simp [wide, fits],
        fun _ => ⟨course, letters, follows, delivers, rfl, rfl⟩⟩

end

/-! ## One message between the weakest keys -/

section

open Curve (Point coordinateLength)

/-- The scalar of the weakest key pair, spelled. -/
private def oneBytes : Bytes := bigEndian coordinateLength 1

private theorem scalar_oneBytes : KeyPair.scalar? oneBytes = some 1 := by decide +kernel

/-- The stream of a seed of zeros. -/
private def zeroStream : KeyStream := .ofSeed (List.replicate secretLength 0)

/-- No files, random bytes that make both scalars one, and names that count the requests. -/
private def countingShelf : Shelf where
  draws request := fun i =>
    if request = 0 then 0
    else if request = 1 then (xorBytes oneBytes (zeroStream.take coordinateLength).1).getD i 0
    else if request = 2 then
      (xorBytes oneBytes ((zeroStream.take coordinateLength).2.take coordinateLength).1).getD i 0
    else (bigEndian 16 request).getD i 0

private theorem map_getD_range (bytes : Bytes) {count : Nat} (length : bytes.length = count) :
    (List.range count).map (bytes.getD · 0) = bytes := by
  subst length
  refine List.ext_getElem (by simp) fun i below within => ?_
  simp [List.getElem?_eq_getElem within]

private theorem countingShelf_varied : countingShelf.Varied := by
  have few : 3 + Shelf.mostNames + 1 < Depot.maxTries := by decide
  refine Shelf.varied_of_counting few fun request later => ?_
  have draws : countingShelf.draws request = ((bigEndian 16 request).getD · 0) := by
    funext i
    simp only [countingShelf]
    rw [if_neg (by omega), if_neg (by omega), if_neg (by omega)]
  rw [Shelf.stem, draws, map_getD_range _ (length_bigEndian ..)]

/-- What the stream is mixed with cancels it. -/
private theorem scalar_mixed {s : Shelf} {stream : KeyStream}
    (draws : s.draws 0 = ((xorBytes oneBytes (stream.take coordinateLength).1).getD · 0)) :
    KeyPair.scalar? (xorBytes ((List.range coordinateLength).map (s.draws 0))
      (stream.take coordinateLength).1) = some 1 := by
  have spelled : oneBytes.length = coordinateLength := length_bigEndian ..
  have taken : (stream.take coordinateLength).1.length = coordinateLength :=
    KeyStream.length_take ..
  have mixed : (xorBytes oneBytes (stream.take coordinateLength).1).length = coordinateLength := by
    rw [length_xorBytes, spelled, taken, Nat.min_self]
  rw [draws, map_getD_range _ mixed, xorBytes_cancel (Nat.le_of_eq (spelled.trans taken.symm)),
    scalar_oneBytes]

private theorem countingShelf_draws :
    ((Mint.run drawPairs).run countingShelf).1 =
      (some (KeyPair.ofScalar 1), some (KeyPair.ofScalar 1)) := by
  have seed : (List.range secretLength).map (countingShelf.draws 0) =
      List.replicate secretLength 0 := by decide
  have first : Mint.keyPair.Gives zeroStream (countingShelf.skip 1) _ _ _ :=
    Mint.gives_keyPair (scalar_mixed rfl)
  have second : Mint.keyPair.Gives (zeroStream.take coordinateLength).2
      ((countingShelf.skip 1).skip 1) _ _ _ := Mint.gives_keyPair (scalar_mixed rfl)
  rw [zeroStream, ← seed] at first
  rw [run_drawPairs first second]

private theorem agreesWith_self : (KeyPair.ofScalar 1).AgreesWith (.ofScalar 1) := by
  have spelled : Point.decode? (KeyPair.ofScalar 1).publicKey = some Curve.generator := by
    decide +kernel
  exact ⟨_, _, spelled, spelled, rfl⟩

/-- The root secret that the weakest key pair has with itself. -/
private def weakRoot : Secret where
  bytes := [149, 138, 86, 5, 148, 30, 142, 100, 75, 238, 77, 145, 39, 135, 194, 11, 246, 171, 69,
    227, 180, 47, 9, 41, 180, 20, 164, 48, 116, 226, 56, 157]
  length_eq := rfl

/-- The secret of the transport that comes from it. -/
private def weakSecret : Secret where
  bytes := [41, 175, 243, 249, 240, 42, 48, 126, 200, 188, 230, 146, 88, 172, 87, 9, 3, 207, 154,
    126, 170, 212, 121, 174, 27, 237, 243, 133, 225, 14, 146, 224]
  length_eq := rfl

private theorem ok_of_toOption {ε α : Type} {result : Except ε α} {value : α}
    (given : result.toOption = some value) : result = .ok value := by
  cases result with
  | error => cases given
  | ok other => exact congrArg _ (Option.some.inj given)

private theorem rootSecret_weakRoot :
    (KeyPair.ofScalar 1).rootSecret (KeyPair.ofScalar 1).publicKey true = .ok weakRoot :=
  ok_of_toOption (by decide +kernel)

private theorem derive_weakRoot :
    weakRoot.derive (.transportSecret onlyTransport.number) = .ok weakSecret :=
  ok_of_toOption (by decide +kernel)

private theorem weakSecret_works (role : Role) : weakSecret.Works role := by
  cases role with
  | alice => exact ⟨by decide, Secret.usable_of_computed (by decide +kernel)⟩
  | bob => exact ⟨by decide, Secret.usable_of_computed (by decide +kernel)⟩

private theorem weakSecret_foreign : Foreign weakSecret 1 := by
  intro stream first tag key tagged derived
  obtain rfl : stream = 0 := by omega
  have computed : ((Tag.make weakSecret 0 .alice).toOption.all fun tag =>
      (weakSecret.derive (.tagKey .bob)).toOption.all fun key => (tag.decode key).isNone) =
        true := by
    decide +kernel
  simpa [tagged, derived, Except.toOption] using computed

/-- One short message goes through a depot that has room for it, and is read. -/
theorem simulate_ends_delivered :
    ∃ lines after, Runs (simulate "depot" 1 3 1000) [] countingShelf (.ok ()) lines after ∧
      ∃ first second introduced, ∃ (course : Course) (lines' : List String),
        course.Follows ⟨"depot", 1000, true⟩ 1 first second introduced lines' ∧
          course.sent = 1 ∧ course.received = 1 ∧
          (course.reader.mailbox.received alice).length = 1 := by
  obtain ⟨first, second, queued, introduced, result, lines, after, -, -, length, -, runs, -, -, -,
      -, succeeds, stages⟩ :=
    @simulate_ends "depot" 1 3 1000 countingShelf _ _ _ _ (by decide) rfl countingShelf_varied
      countingShelf_draws agreesWith_self rootSecret_weakRoot derive_weakRoot weakSecret_works
      weakSecret_foreign
  obtain rfl : result = .ok () := succeeds.mpr (by
    rintro (narrow | oversized)
    · exact absurd narrow.2 (by decide)
    · exact absurd oversized.2.2 (by decide))
  obtain ⟨course, letters, follows, delivers, -, -⟩ := stages rfl
  have consigned := delivers.consigned
  have fewRecords : (letters.flatMap (·.records)).length ≤ 1 :=
    length ▸ consigned.length_records_le
  have some : letters ≠ [] := by
    rintro rfl
    rw [← consigned.messages] at length
    cases length
  have one : letters.length = 1 :=
    Nat.le_antisymm (length ▸ consigned.length_le) (List.length_pos_iff.mpr some)
  have distinct : ((Record.batches (letters.flatMap (·.records))).map Batch.id).Nodup := by
    have fewBatches : (Record.batches (letters.flatMap (·.records))).length ≤ 1 := by
      rw [Record.batches, List.length_map]
      exact Nat.le_trans (List.length_filterMap_le ..) fewRecords
    generalize Record.batches (letters.flatMap (·.records)) = batches at fewBatches
    rcases batches with _ | ⟨batch, _ | ⟨other, more⟩⟩
    · exact .nil
    · exact List.nodup_singleton _
    · simp at fewBatches
  obtain ⟨received, perm⟩ := delivers.whole (one ▸ by decide) distinct
  exact ⟨lines, after, runs, first, second, _, course, _, follows, delivers.sent.trans one,
    received.trans one, perm.length_eq.trans length⟩

end

end Courier.Command
