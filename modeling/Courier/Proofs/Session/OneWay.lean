import Courier.Proofs.Mailbox.Introduction
import Courier.Proofs.Session.Delivery

/-! # Messages in one direction

Two parties share a root. The sender queues messages, publishes updates and
writes connections over any faithful ends; the recipient reads the connections
in the order of writing, which may run ahead of reading. The stream numbers that
the sender has used are those that the recipient has accepted and those on their
way, and what the recipient received, what is on its way and what still waits
are together all that was ever queued. So every connection is read completely,
and messages arrive once and in order.
-/

namespace Courier

namespace Mailbox

/-- Messages that wait for a contact. -/
def waiting (m : Mailbox) (contact : ContactId) : List Bytes :=
  (m.conversation? contact).elim [] (·.queued)

/-- Names of the batches sent to a contact and not acknowledged. -/
def outstandingIds (m : Mailbox) (contact : ContactId) : List BatchId :=
  (m.conversation? contact).elim [] (·.outstanding.map (·.1))

/-- Acknowledgements that a contact is owed. -/
def owed (m : Mailbox) (contact : ContactId) : List BatchId :=
  (m.conversation? contact).elim [] (·.acksOwed)

end Mailbox

/-- A connection on its way, and how far its sender was when it was written. -/
structure Shipment where
  bytes : Bytes
  /-- Records that it carries, as its sender says. -/
  records : Nat
  /-- All messages queued until then. -/
  queued : List Bytes
  /-- The messages that it left in the queue. -/
  waiting : List Bytes
  /-- All batches formed until then. -/
  batches : List BatchId

/-- Two parties and the connections from one to the other. -/
structure OneWay where
  sender : Party
  recipient : Party
  /-- Connections written and not read, oldest first. -/
  flight : List Shipment := []
  /-- Messages queued so far. -/
  queued : List Bytes := []

/-- What two parties have in common, and what they call each other. -/
structure Pairing where
  root : Secret
  /-- The side of the sender. -/
  role : Role
  transport : TransportIndex
  /-- Rotations on either side. -/
  rotations : Nat
  recipient : ContactId
  sender : ContactId

namespace Pairing

variable (p : Pairing)

/-- The route to the recipient. -/
def outbound : Route :=
  ⟨p.recipient, p.transport⟩

/-- The route from the sender. -/
def inbound : Route :=
  ⟨p.sender, p.transport⟩

/-- Both were told of each other, and the recipient expects what is to come. -/
structure Begins (x : OneWay) : Prop where
  sender : ∃ transports, p.transport ∈ transports ∧
    x.sender.mailbox.Introduced p.recipient p.root p.role transports p.rotations
  recipient : ∃ transports, p.transport ∈ transports ∧
    x.recipient.mailbox.Introduced p.sender p.root p.role.peer transports p.rotations
  filled : ∃ size,
    x.recipient.mailbox.expectIncoming (.ofWindow size) = (.ok (), x.recipient.roster)
  apart : ∀ secret, p.root.inPeriod p.transport p.rotations = .ok secret →
    x.recipient.roster.TellsApart p.inbound secret p.role
  flight : x.flight = []
  queued : x.queued = []

/-- One thing that happens. -/
inductive Step : OneWay → OneWay → Prop where
  | queue {x : OneWay} {message : Bytes} {m : Mailbox}
      (queued : x.sender.mailbox.queue p.recipient message = (.ok (), m)) :
      Step x { x with sender := { x.sender with mailbox := m }, queued := x.queued ++ [message] }
  | publishTransports (x : OneWay) (update : TransportUpdate) :
      Step x { x with
        sender := { x.sender with mailbox := x.sender.mailbox.publishTransports update } }
  | publishSubscriptions (x : OneWay) (update : SubscriptionUpdate) :
      Step x { x with
        sender := { x.sender with mailbox := x.sender.mailbox.publishSubscriptions update } }
  | write {δ : Type} {writer : WritingEnd δ} {held : δ → Bytes} {device device' : δ} {x : OneWay}
      {sender : Party} {bytes records : Nat} (faithful : writer.Faithful held)
      (empty : held device = [])
      (wrote : x.sender.send p.outbound writer device =
        (.ok (.completed bytes records), device', sender))
      (some : 0 < records) :
      Step x { x with
        sender
        flight := x.flight ++
          [{ bytes := held device', records, queued := x.queued,
             waiting := sender.mailbox.waiting p.recipient,
             batches := sender.mailbox.outstandingIds p.recipient }] }
  | read {ρ : Type} {reader : ReadingEnd ρ} {left : ρ → Bytes} {device : ρ} {x : OneWay}
      {s : Shipment} {flight : List Shipment} (faithful : reader.Faithful left)
      (first : x.flight = s :: flight) (bytes : left device = s.bytes) :
      Step x { x with recipient := (x.recipient.receive reader device).2.2, flight }

/-- Any number of things that happen, one after the other. -/
abbrev Run : OneWay → OneWay → Prop :=
  Relation.ReflTransGen p.Step

end Pairing

/-! ## What is on its way -/

/-- The shipments carry these records on consecutive streams, and each tells how far the sender was,
    given what was received and which batches were owed before the first of them. -/
inductive Flies (secret : Secret) (role : Role) :
    (stream : Nat) → (received : List Bytes) → (owed : List BatchId) → List Shipment →
      List Record → Prop where
  | none (stream : Nat) (received : List Bytes) (owed : List BatchId) :
      Flies secret role stream received owed [] []
  | cons {stream : Nat} {received : List Bytes} {owed : List BatchId} {s : Shipment}
      {flight : List Shipment} {records more : List Record}
      (carries : Session.Carries secret stream role records s.bytes)
      (count : records.length = s.records)
      (queued : received ++ records.flatMap Record.messages ++ s.waiting = s.queued)
      (batches : owed ++ Record.batchIds records = s.batches)
      (rest : Flies secret role (stream + 1) (received ++ records.flatMap Record.messages)
        (owed ++ Record.batchIds records) flight more) :
      Flies secret role stream received owed (s :: flight) (records ++ more)

theorem Flies.append {secret : Secret} {role : Role} {stream : Nat} {received : List Bytes}
    {owed : List BatchId} {flight : List Shipment} {records more : List Record} {s : Shipment}
    (flies : Flies secret role stream received owed flight records)
    (carries : Session.Carries secret (stream + flight.length) role more s.bytes)
    (count : more.length = s.records)
    (queued : received ++ (records ++ more).flatMap Record.messages ++ s.waiting = s.queued)
    (batches : owed ++ Record.batchIds (records ++ more) = s.batches) :
    Flies secret role stream received owed (flight ++ [s]) (records ++ more) := by
  induction flies with
  | none stream received owed =>
      have last : Flies secret role (stream + 1) (received ++ more.flatMap Record.messages)
          (owed ++ Record.batchIds more) [] [] := .none _ _ _
      have one := Flies.cons carries count queued batches last
      rwa [List.append_nil] at one
  | @cons stream received owed first flight records others carried counted before named rest ih =>
      rw [List.append_assoc]
      refine .cons carried counted before named (ih ?_ ?_ ?_)
      · rw [List.length_cons] at carries
        rwa [Nat.add_assoc, Nat.add_comm 1]
      · simpa only [List.flatMap_append, List.append_assoc] using queued
      · simpa only [Record.batchIds_append, List.append_assoc] using batches

namespace Pairing

variable {p : Pairing}

/-! ## What holds all along -/

/-- The sender and the recipient agree on what has arrived: the sender has conversation `a`, the
    recipient conversation `b`, and the records between them are on their way. -/
structure Steady (p : Pairing) (secret : Secret) (x : OneWay) (a : Conversation) (stream : Nat)
    (onWay : List Record) (b : Conversation) : Prop where
  role : a.role = p.role
  lane : a.lanes.find? p.transport = some { secret, next := stream + x.flight.length }
  known : x.recipient.mailbox.conversation? p.sender = some b
  awaits : x.recipient.roster.Awaits p.inbound secret p.role.peer stream
  flies : Flies secret p.role stream b.received b.acksOwed x.flight onWay
  queued : b.received ++ onWay.flatMap Record.messages ++ a.queued = x.queued
  batches : a.outstanding.map (·.1) = b.acksOwed ++ Record.batchIds onWay
  owes : b.OwesAll

/-- While no two batches have one name, the two parties agree. -/
structure Agrees (p : Pairing) (secret : Secret) (x : OneWay) (a : Conversation) : Prop where
  known : x.sender.mailbox.conversation? p.recipient = some a
  owed : a.acksOwed.Nodup
  steady : (a.outstanding.map (·.1)).Nodup → ∃ stream onWay b, p.Steady secret x a stream onWay b

variable {secret : Secret} {x y : OneWay} {a : Conversation}

theorem Agrees.begins (begins : p.Begins x) : ∃ secret a, p.Agrees secret x a := by
  obtain ⟨⟨transports, here, introduced⟩, ⟨transports', there, introduced'⟩, ⟨size, filled⟩, apart,
    flight, queued⟩ := begins
  obtain ⟨lanes, known, secrets⟩ := introduced.conversation
  obtain ⟨secret, derived, lane⟩ := secrets p.transport here
  obtain ⟨lanes', known', secrets'⟩ := introduced'.conversation
  obtain ⟨secret', derived', lane'⟩ := secrets' p.transport there
  obtain rfl : secret = secret' := Except.ok.inj (derived.symm.trans derived')
  refine ⟨secret, _, known, List.nodup_nil, fun _ =>
    ⟨0, [], { role := p.role.peer, period := p.rotations, lanes := lanes' }, ?_⟩⟩
  have reached : x.recipient.mailbox.lane? p.inbound = some (p.role.peer, { secret }) :=
    (Mailbox.lane?_eq_some_iff ..).mpr ⟨_, known', lane', rfl⟩
  obtain ⟨peerTagKey, peer, expected⟩ := Mailbox.expects_of_expectIncoming filled reached
  constructor
  case role => rfl
  case lane => simpa [flight] using lane
  case known => exact known'
  case awaits =>
    refine ⟨⟨max size 1, peerTagKey, by omega, peer, expected⟩, ?_⟩
    rw [Role.peer_peer]
    exact apart secret derived
  case flies =>
    rw [flight]
    exact .none 0 [] []
  case queued => exact queued.symm
  case batches => rfl
  case owes => rfl

/-- A state in which the sender's conversation differs at most in what was not sent yet. -/
theorem Agrees.prepared {a' : Conversation} {sender : Mailbox} {queued more : List Bytes}
    (agrees : p.Agrees secret x a) (known : sender.conversation? p.recipient = some a')
    (role : a'.role = a.role) (lanes : a'.lanes = a.lanes) (owed : a'.acksOwed = a.acksOwed)
    (outstanding : a'.outstanding = a.outstanding) (added : a'.queued = a.queued ++ more)
    (all : queued = x.queued ++ more) :
    p.Agrees secret { x with sender := { x.sender with mailbox := sender }, queued } a' := by
  refine ⟨known, owed.symm ▸ agrees.owed, fun distinct => ?_⟩
  rw [outstanding] at distinct
  obtain ⟨stream, onWay, b, steady⟩ := agrees.steady distinct
  refine ⟨stream, onWay, b, ?_⟩
  exact { steady with
    role := role.trans steady.role
    lane := lanes.symm ▸ steady.lane
    queued := by rw [added, all, ← List.append_assoc, steady.queued]
    batches := outstanding.symm ▸ steady.batches }

theorem Agrees.published {sender : Mailbox} (agrees : p.Agrees secret x a)
    (known : sender.conversation? p.recipient = some a) :
    p.Agrees secret { x with sender := { x.sender with mailbox := sender } } a := by
  have nothing : ∀ messages : List Bytes, messages = messages ++ [] :=
    fun messages => (List.append_nil messages).symm
  exact agrees.prepared known rfl rfl rfl rfl (nothing a.queued) (nothing x.queued)

theorem Steady.sent {a' b : Conversation} {stream : Nat} {onWay taken : List Record} {s : Shipment}
    {sender : Party} (steady : p.Steady secret x a stream onWay b)
    (hands : Conversation.Hands
      { a with
        lanes := a.lanes.insert p.transport { secret, next := stream + x.flight.length + 1 } }
      taken a')
    (carries : Session.Carries secret (stream + x.flight.length) p.role taken s.bytes)
    (count : taken.length = s.records) (queued : s.queued = x.queued)
    (waiting : s.waiting = a'.queued) (batches : s.batches = a'.outstanding.map (·.1)) :
    p.Steady secret { x with sender, flight := x.flight ++ [s] } a' stream (onWay ++ taken) b := by
  have left : a.queued = taken.flatMap Record.messages ++ a'.queued := hands.queued
  have names : a'.outstanding.map (·.1) = b.acksOwed ++ Record.batchIds (onWay ++ taken) := by
    rw [hands.outstanding, List.map_append, steady.batches, Record.batchIds_append,
      List.append_assoc]
    rfl
  have all : b.received ++ (onWay ++ taken).flatMap Record.messages ++ a'.queued = x.queued := by
    rw [← steady.queued, left, List.flatMap_append]
    simp only [List.append_assoc]
  constructor
  case role => exact hands.role.trans steady.role
  case lane =>
    rw [hands.lanes, Table.find?_insert_self, List.length_append]
    rfl
  case known => exact steady.known
  case awaits => exact steady.awaits
  case owes => exact steady.owes
  case queued => exact all
  case batches => exact names
  case flies =>
    refine steady.flies.append carries count ?_ ?_
    · rw [waiting, queued, all]
    · rw [batches, names]

theorem Agrees.write {δ : Type} {writer : WritingEnd δ} {held : δ → Bytes} {device device' : δ}
    {sender : Party} {bytes records : Nat} (agrees : p.Agrees secret x a)
    (faithful : writer.Faithful held) (empty : held device = [])
    (wrote : x.sender.send p.outbound writer device =
      (.ok (.completed bytes records), device', sender)) (some : 0 < records) :
    ∃ a', p.Agrees secret { x with
      sender
      flight := x.flight ++
        [{ bytes := held device', records, queued := x.queued,
           waiting := sender.mailbox.waiting p.recipient,
           batches := sender.mailbox.outstandingIds p.recipient }] } a' := by
  have owed : ∀ c, x.sender.mailbox.conversation? p.outbound.contact = Option.some c →
      c.acksOwed.Nodup := by
    intro c found
    rw [show x.sender.mailbox.conversation? p.outbound.contact = _ from agrees.known] at found
    exact Option.some.inj found ▸ agrees.owed
  obtain ⟨taken, count, -, sends⟩ := Party.sends_of_send faithful empty owed wrote some
  obtain ⟨mailbox, roster⟩ := sender
  cases sends with
  | @onLane c a' lane found here hands carries =>
      obtain rfl : a = c := Option.some.inj (agrees.known.symm.trans found)
      have known : (x.sender.mailbox.setConversation p.recipient a').conversation? p.recipient =
          Option.some a' := Mailbox.conversation?_setConversation_self ..
      have names : a'.outstanding.map (·.1) =
          a.outstanding.map (·.1) ++ Record.batchIds taken := by
        rw [hands.outstanding, List.map_append, Record.batchIds]
      refine ⟨a', known, hands.distinct, fun apart => ?_⟩
      rw [names] at apart
      obtain ⟨stream, onWay, b, steady⟩ := agrees.steady (List.nodup_append.mp apart).1
      obtain rfl := Option.some.inj (steady.lane.symm.trans here)
      refine ⟨stream, onWay ++ taken, b, ?_⟩
      refine steady.sent hands ?_ count rfl ?_ ?_
      · rw [steady.role] at carries
        exact carries
      · exact congrArg (·.elim [] Conversation.queued) known
      · exact congrArg (·.elim [] fun c => c.outstanding.map (·.1)) known

/-- The oldest connection on its way is read completely, and brings the recipient to where the
    sender was when it was written. -/
theorem Steady.receive {ρ : Type} {reader : ReadingEnd ρ} {left : ρ → Bytes} {device : ρ}
    {s : Shipment} {flight : List Shipment} {b : Conversation} {stream : Nat} {onWay : List Record}
    (steady : p.Steady secret x a stream onWay b) (distinct : (a.outstanding.map (·.1)).Nodup)
    (faithful : reader.Faithful left) (first : x.flight = s :: flight)
    (bytes : left device = s.bytes) :
    ∃ device' recipient b' rest, x.recipient.receive reader device =
        (.ok (.completed p.sender s.records), device', recipient) ∧
      b'.received ++ s.waiting = s.queued ∧ b'.acksOwed = s.batches ∧
      p.Steady secret { x with recipient, flight } a (stream + 1) rest b' := by
  have flies := steady.flies
  have names := steady.batches
  have all := steady.queued
  have lane := steady.lane
  rw [first] at flies lane
  cases flies with
  | @cons _ _ _ _ _ records more carries count queued batches rest =>
      rw [← bytes, ← Role.peer_peer p.role] at carries
      obtain ⟨device', recipient, received, mailbox, awaits⟩ :=
        Party.receive_of_carries faithful steady.awaits steady.known carries
      rw [names, Record.batchIds_append, ← List.append_assoc] at distinct
      have arrived := (List.nodup_append.mp distinct).1
      rw [steady.owes] at arrived
      obtain ⟨messages, seen, owes⟩ := Conversation.receiveAll_fresh steady.owes arrived
      have owed : (b.receiveAll records).acksOwed = b.acksOwed ++ Record.batchIds records := by
        rw [owes, seen, ← steady.owes]
      rw [count] at received
      refine ⟨device', recipient, b.receiveAll records, more, received, ?_, ?_, ?_⟩
      · rw [messages, queued]
      · rw [owed, batches]
      constructor
      case role => exact steady.role
      case lane =>
        rw [lane, List.length_cons, Nat.add_assoc, Nat.add_comm 1]
      case known =>
        rw [show Party.mailbox _ = _ from mailbox]
        exact Mailbox.conversation?_setConversation_self ..
      case awaits => exact awaits
      case owes => exact owes
      case flies =>
        rw [messages, owed]
        exact rest
      case queued => rw [← all, messages, List.flatMap_append, ← List.append_assoc]
      case batches => rw [names, owed, Record.batchIds_append, List.append_assoc]

theorem Agrees.read {ρ : Type} {reader : ReadingEnd ρ} {left : ρ → Bytes} {device : ρ}
    {s : Shipment} {flight : List Shipment} (agrees : p.Agrees secret x a)
    (faithful : reader.Faithful left) (first : x.flight = s :: flight)
    (bytes : left device = s.bytes) :
    p.Agrees secret { x with recipient := (x.recipient.receive reader device).2.2, flight } a := by
  refine ⟨agrees.known, agrees.owed, fun distinct => ?_⟩
  obtain ⟨stream, onWay, b, steady⟩ := agrees.steady distinct
  obtain ⟨device', recipient, b', rest, received, -, -, next⟩ :=
    steady.receive distinct faithful first bytes
  rw [received]
  exact ⟨stream + 1, rest, b', next⟩

theorem Agrees.step (agrees : p.Agrees secret x a) (step : p.Step x y) :
    ∃ a', p.Agrees secret y a' := by
  cases step with
  | @queue _ message m queued =>
      simp only [Mailbox.queue, Mailbox.update_of_conversation? agrees.known] at queued
      obtain ⟨-, rfl⟩ := Prod.mk.inj queued
      have known : (x.sender.mailbox.setConversation p.recipient
          { a with queued := a.queued ++ [message] }).conversation? p.recipient =
            some { a with queued := a.queued ++ [message] } :=
        Mailbox.conversation?_setConversation_self ..
      exact ⟨_, agrees.prepared known rfl rfl rfl rfl rfl rfl⟩
  | publishTransports _ update =>
      have known : (x.sender.mailbox.publishTransports update).conversation? p.recipient = some a :=
        agrees.known
      exact ⟨a, agrees.published known⟩
  | publishSubscriptions _ update =>
      have known :
          (x.sender.mailbox.publishSubscriptions update).conversation? p.recipient = some a :=
        agrees.known
      exact ⟨a, agrees.published known⟩
  | write faithful empty wrote some => exact agrees.write faithful empty wrote some
  | read faithful first bytes => exact ⟨a, agrees.read faithful first bytes⟩

theorem Agrees.run (agrees : p.Agrees secret x a) (run : p.Run x y) :
    ∃ a', p.Agrees secret y a' := by
  induction run with
  | refl => exact ⟨a, agrees⟩
  | tail _ step ih =>
      obtain ⟨between, here⟩ := ih
      exact here.step step

/-- Whatever was queued, published, written and read before: as long as no two of the batches
    that the sender has formed, all of them outstanding, have one name, the next connection is read
    completely, with as many records as were written, and leaves the recipient with the messages
    that were queued for it except those that still waited when it was written. -/
theorem arrives_in_order {begun : OneWay} (begins : p.Begins begun) (run : p.Run begun x)
    (distinct : (x.sender.mailbox.outstandingIds p.recipient).Nodup) :
    (∀ s flight, x.flight = s :: flight →
      ∀ {ρ : Type} {reader : ReadingEnd ρ} {left : ρ → Bytes} {device : ρ}, reader.Faithful left →
        left device = s.bytes → ∃ device' recipient,
          x.recipient.receive reader device =
            (.ok (.completed p.sender s.records), device', recipient) ∧
          recipient.mailbox.received p.sender ++ s.waiting = s.queued ∧
          recipient.mailbox.owed p.sender = s.batches) ∧
      (x.flight = [] →
        x.recipient.mailbox.received p.sender ++ x.sender.mailbox.waiting p.recipient = x.queued ∧
        x.recipient.mailbox.owed p.sender = x.sender.mailbox.outstandingIds p.recipient) := by
  obtain ⟨secret, a₀, agreed⟩ := Agrees.begins begins
  obtain ⟨a, agrees⟩ := agreed.run run
  have names : x.sender.mailbox.outstandingIds p.recipient = a.outstanding.map (·.1) :=
    congrArg (·.elim [] fun c => c.outstanding.map (·.1)) agrees.known
  rw [names] at distinct
  obtain ⟨stream, onWay, b, steady⟩ := agrees.steady distinct
  constructor
  · intro s flight first ρ reader left device faithful bytes
    obtain ⟨device', recipient, b', rest, received, whole, owed, next⟩ :=
      steady.receive distinct faithful first bytes
    have known : recipient.mailbox.conversation? p.sender = some b' := next.known
    refine ⟨device', recipient, received, ?_, ?_⟩
    · rw [Mailbox.received, known]
      exact whole
    · rw [Mailbox.owed, known]
      exact owed
  · intro none
    have flies := steady.flies
    rw [none] at flies
    cases flies
    constructor
    · rw [Mailbox.received, Mailbox.waiting, steady.known, agrees.known]
      simpa using steady.queued
    · rw [names, Mailbox.owed, steady.known, steady.batches]
      simp [Record.batchIds]

set_option maxRecDepth 100000 in
/-- One message, after both sides were rotated. -/
theorem arrives_in_order_after_rotation :
    let p : Pairing :=
      { root := .repeated 7, role := .alice, transport := ⟨0⟩, rotations := 1, recipient := ⟨2⟩,
        sender := ⟨1⟩ }
    ∃ begun x s, p.Begins begun ∧ p.Run begun x ∧
      (x.sender.mailbox.outstandingIds p.recipient).Nodup ∧ x.flight = [s] ∧
      s.queued = [[1, 2, 3]] ∧ ∃ device' recipient,
        x.recipient.receive (Memory.readingEnd {}) { rest := s.bytes } =
          (.ok (.completed ⟨1⟩ s.records), device', recipient) ∧
        recipient.mailbox.received ⟨1⟩ ++ s.waiting = [[1, 2, 3]] := by
  intro p
  let added := ({} : Mailbox).addContact ⟨2⟩ (.repeated 7) .alice [⟨0⟩]
  let added' := ({} : Mailbox).addContact ⟨1⟩ (.repeated 7) .bob [⟨0⟩]
  let moved := added.2.rotate ⟨2⟩
  let moved' := added'.2.rotate ⟨1⟩
  let expected := moved'.2.expectIncoming (.ofWindow 4)
  let begun : OneWay :=
    { sender := { mailbox := moved.2 }
      recipient := { mailbox := moved'.2, roster := expected.2 } }
  have done : added = (.ok (), added.2) := eq_of_toOption (by decide +kernel)
  have done' : added' = (.ok (), added'.2) := eq_of_toOption (by decide +kernel)
  have next : moved = (.ok 1, moved.2) := eq_of_toOption (by decide +kernel)
  have next' : moved' = (.ok 1, moved'.2) := eq_of_toOption (by decide +kernel)
  have filled : expected = (.ok (), expected.2) := eq_of_toOption (by decide +kernel)
  have only : expected.2.entries.entries.map (·.1) = [p.inbound] := by decide +kernel
  have begins : p.Begins begun := by
    constructor
    case sender => exact ⟨[⟨0⟩], by decide, .rotated (.added done) next⟩
    case recipient => exact ⟨[⟨0⟩], by decide, .rotated (.added done') next'⟩
    case filled => exact ⟨4, filled⟩
    case apart =>
      intro secret derived stream tag other its made found different
      have member := List.mem_map_of_mem (f := (·.1)) ((Table.find?_eq_some_iff ..).mp found)
      rw [show begun.recipient.roster.entries.entries.map (·.1) = _ from only] at member
      exact absurd (List.mem_singleton.mp member) different
    case flight => rfl
    case queued => rfl
  let queued := moved.2.queue ⟨2⟩ [1, 2, 3]
  have put : queued = (.ok (), queued.2) := eq_of_toOption (by decide +kernel)
  let sender : Party := { mailbox := queued.2 }
  let sent := sender.send p.outbound (Memory.writingEnd {} 1000) {}
  have wrote : sent = (.ok (.completed 110 1), sent.2.1, sent.2.2) :=
    eq_of_toOption (by decide +kernel)
  let s : Shipment :=
    { bytes := sent.2.1.bytes, records := 1, queued := [[1, 2, 3]]
      waiting := sent.2.2.mailbox.waiting p.recipient
      batches := sent.2.2.mailbox.outstandingIds p.recipient }
  let ready : OneWay := { begun with sender, queued := [[1, 2, 3]] }
  let x : OneWay := { ready with sender := sent.2.2, flight := [s] }
  have empty : ({} : Memory.Outbound).bytes = [] := rfl
  have first : p.Step begun ready := .queue put
  have second : p.Step ready x :=
    .write (Memory.writingEnd_faithful {} 1000 Frame.maxLength) empty wrote Nat.one_pos
  have run : p.Run begun x := .tail (.single first) second
  have distinct : (x.sender.mailbox.outstandingIds p.recipient).Nodup := by decide +kernel
  have flight : x.flight = [s] := rfl
  have message : s.queued = [[1, 2, 3]] := rfl
  have left : ({ rest := s.bytes } : Memory.Inbound).rest = s.bytes := rfl
  obtain ⟨device', recipient, received, whole, -⟩ :=
    (arrives_in_order begins run distinct).1 s [] flight
      (Memory.readingEnd_faithful Memory.ReadLimits.harmless_default) left
  exact ⟨begun, x, s, begins, run, distinct, flight, message, device', recipient, received,
    whole.trans message⟩

end Pairing

end Courier
