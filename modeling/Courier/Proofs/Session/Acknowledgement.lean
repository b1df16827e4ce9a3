import Courier.Proofs.Mailbox.Introduction
import Courier.Proofs.Session.Arrival
import Courier.Proofs.Session.Failure
import Mathlib.Algebra.Order.Sub.Basic
import Mathlib.Data.Multiset.OrderedMonoid

/-! # What an acknowledgement tells

Two parties write connections to each other, on any of the transports that both
were told of, and a connection that was written may be read late, never, or more
than once. The names that a party acknowledges are those of batches that it has
received, so a batch that is cleared has the name of one whose messages have
arrived. If no two batches of a sender have one name, the messages of all cleared
batches have arrived, each as often as it was cleared. Names tell nothing apart
but messages: two batches of the same messages are cleared by one
acknowledgement.
-/

namespace Courier

/-- Whether an operation does no more to a contact than queue messages for it. -/
def Mailbox.Operation.onlyQueues (contact : ContactId) : Mailbox.Operation → Bool
  | queue .. | publishTransports _ | publishSubscriptions _ => true
  | addContact other .. | removeContact other | rotate other | requeue other
  | context ⟨other, _⟩ | takeTransportUpdate other | takeSubscriptionUpdate other
  | takeAck other _ | takeBatch other _ | restore other _ | receive other _ => other ≠ contact

/-- What two parties have in common, and what they call each other. -/
structure Acquaintance where
  root : Secret
  /-- The side of the sender. -/
  role : Role
  transports : List TransportIndex
  /-- Rotations on either side. -/
  rotations : Nat
  recipient : ContactId
  sender : ContactId

namespace Acquaintance

/-- The same, from the other side. -/
def flip (a : Acquaintance) : Acquaintance :=
  { a with role := a.role.peer, recipient := a.sender, sender := a.recipient }

/-- Both know the secret of the transport. -/
def Shares (a : Acquaintance) (transport : TransportIndex) (secret : Secret) : Prop :=
  transport ∈ a.transports ∧ a.root.inPeriod transport a.rotations = .ok secret

@[simp] theorem flip_flip (a : Acquaintance) : a.flip.flip = a := by
  simp [flip, Role.peer_peer]

end Acquaintance

/-- A party, and the account of what it wrote to another one. -/
structure Correspondent where
  party : Party
  /-- The connections with records that it has written, whether they are ever read or not. -/
  written : List Bytes := []
  /-- The batches that it has formed. -/
  formed : Multiset Batch := 0
  /-- The batches that acknowledgements have cleared. -/
  cleared : Multiset Batch := 0

namespace Correspondent

/-- The party was told of the other one and expects what is to come, and has written nothing yet. -/
structure Begins (a : Acquaintance) (own : Correspondent) : Prop where
  told : own.party.mailbox.Introduced a.recipient a.root a.role a.transports a.rotations
  expects : ∃ size,
    own.party.mailbox.expectIncoming (.ofWindow size) = (.ok (), own.party.roster)
  apart : ∀ {transport secret}, a.Shares transport secret →
    own.party.roster.TellsApart ⟨a.recipient, transport⟩ secret a.role.peer
  unwritten : own = { party := own.party }

/-- One thing that a party does, where the other one has written these connections so far. -/
inductive Step (a : Acquaintance) (incoming : List Bytes) :
    Correspondent → Correspondent → Prop where
  | prepare {own : Correspondent} (operation : Mailbox.Operation)
      (queues : operation.onlyQueues a.recipient = true) :
      Step a incoming own { own with
        party := { own.party with mailbox := operation.apply own.party.mailbox } }
  | sendNothing {δ : Type} {writer : WritingEnd δ} {device device' : δ} {own : Correspondent}
      {transport : TransportIndex} {party : Party}
      {result : Except SessionFault Session.SendOutcome}
      (sent : own.party.send ⟨a.recipient, transport⟩ writer device = (result, device', party))
      (nothing : ∀ bytes records, result = .ok (.completed bytes records) → records = 0) :
      Step a incoming own { own with party }
  | send {δ : Type} {writer : WritingEnd δ} {held : δ → Bytes} {device device' : δ}
      {own : Correspondent} {transport : TransportIndex} {party : Party} {bytes records : Nat}
      (faithful : writer.Faithful held) (empty : held device = [])
      (common : transport ∈ a.transports)
      (sent : own.party.send ⟨a.recipient, transport⟩ writer device =
        (.ok (.completed bytes records), device', party))
      (some : 0 < records) :
      Step a incoming own { own with
        party
        written := own.written ++ [held device']
        formed := own.formed + (party.mailbox.outstandingBatches a.recipient -
          own.party.mailbox.outstandingBatches a.recipient) }
  | receive {ρ : Type} {reader : ReadingEnd ρ} {left : ρ → Bytes} {device device' : ρ}
      {own : Correspondent} {party : Party} {result : Except SessionFault Session.ReceiveOutcome}
      (faithful : reader.Faithful left) (some : left device ∈ incoming)
      (received : own.party.receive reader device = (result, device', party)) :
      Step a incoming own { own with
        party
        cleared := own.cleared + (own.party.mailbox.outstandingBatches a.recipient -
          party.mailbox.outstandingBatches a.recipient) }

end Correspondent

/-- Two parties that write to each other. -/
structure Exchange where
  sender : Correspondent
  recipient : Correspondent

namespace Exchange

variable (a : Acquaintance)

/-- Each was told of the other and expects what is to come, and nothing was written yet. -/
structure Begins (x : Exchange) : Prop where
  sender : x.sender.Begins a
  recipient : x.recipient.Begins a.flip

inductive Step : Exchange → Exchange → Prop where
  | sender {x : Exchange} {own : Correspondent}
      (step : Correspondent.Step a x.recipient.written x.sender own) :
      Step x { x with sender := own }
  | recipient {x : Exchange} {own : Correspondent}
      (step : Correspondent.Step a.flip x.sender.written x.recipient own) :
      Step x { x with recipient := own }

/-- Any number of steps. -/
abbrev Run : Exchange → Exchange → Prop :=
  Relation.ReflTransGen (Step a)

end Exchange

/-! ## What operations leave -/

namespace Mailbox

variable {m : Mailbox} {contact : ContactId} {c : Conversation}

theorem outstandingBatches_of_conversation? (found : m.conversation? contact = some c) :
    m.outstandingBatches contact = c.outstanding.map (·.2) := by
  rw [outstandingBatches, found]
  rfl

theorem conversation?_queue (found : m.conversation? contact = some c) (message : Bytes) :
    (m.queue contact message).2.conversation? contact =
      some { c with queued := c.queued ++ [message] } := by
  rw [Mailbox.queue, update_of_conversation? found, conversation?_setConversation_self]

theorem queued_of_onlyQueues {operation : Operation}
    (queues : operation.onlyQueues contact = true) (found : m.conversation? contact = some c) :
    ∃ messages, (operation.apply m).conversation? contact =
      some { c with queued := c.queued ++ messages } := by
  rcases operation.exists_of_known found with ⟨c', after, rfl | changes⟩ | rfl | ⟨_, _, _, rfl⟩
  · exact ⟨[], by rw [after, List.append_nil]⟩
  · cases changes with
    | queue _ message => exact ⟨[message], after⟩
    | rotate | requeue | useStream | takeTransportUpdate | takeSubscriptionUpdate | takeAck
    | takeBatch | restore | receive => exact absurd rfl (of_decide_eq_true queues)
  · exact absurd rfl (of_decide_eq_true queues)
  · exact absurd rfl (of_decide_eq_true queues)

end Mailbox

/-! ## What one party knows -/

/-- What is left out of a list is what its filter refuses. -/
private theorem exists_of_mem_sub {batches : List (BatchId × Batch)}
    {keep : BatchId × Batch → Bool} {batch : Batch}
    (member : batch ∈ (batches.map (·.2) - (batches.filter keep).map (·.2) : Multiset Batch)) :
    ∃ entry ∈ batches, keep entry = false ∧ entry.2 = batch := by
  have split : (batches.map (·.2) : Multiset Batch) =
      (batches.filter keep).map (·.2) + (batches.filter fun entry => !keep entry).map (·.2) := by
    rw [Multiset.coe_add, ← List.map_append]
    exact Multiset.coe_eq_coe.mpr ((List.filter_append_perm keep batches).symm.map _)
  rw [split, add_tsub_cancel_left] at member
  obtain ⟨entry, left, same⟩ := List.mem_map.mp (Multiset.mem_coe.mp member)
  obtain ⟨here, refused⟩ := List.mem_filter.mp left
  exact ⟨entry, here, by simpa using refused, same⟩

namespace Correspondent

/-- The bytes carry batches that were formed and names of batches that have arrived. -/
def Tells (a : Acquaintance) (formed : Multiset Batch) (arrived : List Batch) (bytes : Bytes) :
    Prop :=
  ∃ transport secret stream records, a.Shares transport secret ∧
    Session.Carries secret stream a.role records bytes ∧
    (∀ batch ∈ Record.batches records, batch ∈ formed) ∧
    ∀ id ∈ records.flatMap Record.acked, id ∈ arrived.map Batch.id

theorem Tells.mono {a : Acquaintance} {formed formed' : Multiset Batch} {arrived more : List Batch}
    {bytes : Bytes} (tells : Tells a formed arrived bytes) (grown : formed ≤ formed') :
    Tells a formed' (arrived ++ more) bytes := by
  obtain ⟨transport, secret, stream, records, shared, carries, batches, acked⟩ := tells
  refine ⟨transport, secret, stream, records, shared, carries, fun batch member => ?_,
    fun id member => ?_⟩
  · exact Multiset.mem_of_le grown (batches batch member)
  · rw [List.map_append]
    exact List.mem_append_left _ (acked id member)

/-- The conversation with the other party is `c`. On each transport the next connection is number
    `next`, those of the other party are accepted by the window, and the batches of `arrived` came
    from it. -/
structure Stands (a : Acquaintance) (own : Correspondent) (c : Conversation)
    (next : TransportIndex → Nat) (windows : TransportIndex → Window) (arrived : List Batch) :
    Prop where
  known : own.party.mailbox.conversation? a.recipient = some c
  side : c.role = a.role
  lanes : ∀ transport ∈ a.transports, ∃ secret, a.Shares transport secret ∧
    c.lanes.find? transport = some { secret, next := next transport }
  listens : ∀ {transport secret}, a.Shares transport secret →
    own.party.roster.Listens ⟨a.recipient, transport⟩ secret a.role (windows transport)
  accounts : c.Accounts arrived
  formed : c.outstanding.map (·.2) + own.cleared = own.formed
  written : ∀ bytes ∈ own.written, Tells a own.formed arrived bytes

variable {a : Acquaintance} {own own' : Correspondent} {c : Conversation}
  {next : TransportIndex → Nat} {windows : TransportIndex → Window}
  {arrived arrivedThere : List Batch}

/-- Nothing has arrived yet, and the first connection of the other party is waited for. -/
theorem Begins.stands (begins : own.Begins a) :
    ∃ c size, 0 < size ∧ own.Stands a c (fun _ => 0) (fun _ => .fresh size 0) [] := by
  obtain ⟨told, ⟨size, filled⟩, apart, unwritten⟩ := begins
  obtain ⟨lanes, known, secrets⟩ := told.conversation
  refine ⟨{ role := a.role, period := a.rotations, lanes }, max size 1, by omega, ?_⟩
  constructor
  case known => exact known
  case side => rfl
  case lanes =>
    intro transport common
    obtain ⟨secret, derived, lane⟩ := secrets transport common
    exact ⟨secret, ⟨common, derived⟩, lane⟩
  case listens =>
    intro transport secret shared
    obtain ⟨common, derived⟩ := shared
    obtain ⟨its, derived', lane⟩ := secrets transport common
    obtain rfl : secret = its := Except.ok.inj (derived.symm.trans derived')
    have reached : own.party.mailbox.lane? ⟨a.recipient, transport⟩ = some (a.role, { secret }) :=
      (Mailbox.lane?_eq_some_iff ..).mpr ⟨_, known, lane, rfl⟩
    exact ⟨Mailbox.expects_of_expectIncoming filled reached, apart ⟨common, derived⟩⟩
  case accounts => exact ⟨rfl, .nil, by simp, by simp, .nil, by simp⟩
  case formed =>
    rw [unwritten]
    rfl
  case written =>
    rw [unwritten]
    simp

theorem Stands.outstanding_eq_nil (stands : own.Stands a c next windows arrived)
    (unformed : own.formed = 0) : c.outstanding = [] := by
  have formed := stands.formed
  rw [unformed, add_eq_zero] at formed
  exact List.map_eq_nil_iff.mp ((Multiset.coe_eq_zero _).mp formed.1)

theorem Stands.prepare (stands : own.Stands a c next windows arrived)
    (operation : Mailbox.Operation) (queues : operation.onlyQueues a.recipient = true) :
    ∃ c', Stands a { own with
      party := { own.party with mailbox := operation.apply own.party.mailbox } }
      c' next windows arrived := by
  obtain ⟨messages, known⟩ := Mailbox.queued_of_onlyQueues queues stands.known
  exact ⟨_, { stands with known, accounts := { stands.accounts with } }⟩

theorem Stands.owedOnce (stands : own.Stands a c next windows arrived) (other : Conversation)
    (held : own.party.mailbox.conversation? a.recipient = some other) : other.acksOwed.Nodup := by
  obtain rfl := Option.some.inj (stands.known.symm.trans held)
  exact stands.accounts.owedOnce

/-- A lane on which a number was used up is one further, and the others are as before. -/
theorem Stands.lanes_insert (stands : own.Stands a c next windows arrived)
    {transport : TransportIndex} {lane : Lane}
    (here : c.lanes.find? transport = some lane) {c' : Conversation}
    (used : c'.lanes = c.lanes.insert transport { lane with next := lane.next + 1 }) :
    ∀ other ∈ a.transports, ∃ secret, a.Shares other secret ∧ c'.lanes.find? other =
      some { secret, next := Function.update next transport (lane.next + 1) other } := by
  intro other common
  obtain ⟨secret, shared, found⟩ := stands.lanes other common
  refine ⟨secret, shared, ?_⟩
  rw [used]
  by_cases same : other = transport
  · subst same
    obtain rfl := Option.some.inj (here.symm.trans found)
    rw [Table.find?_insert_self, Function.update_self]
  · rw [Table.find?_insert_of_ne _ _ (Ne.symm same), found, Function.update_of_ne same]

theorem Stands.sendNothing {δ : Type} {writer : WritingEnd δ} {device device' : δ}
    {transport : TransportIndex} {party : Party}
    {result : Except SessionFault Session.SendOutcome}
    (stands : own.Stands a c next windows arrived)
    (sent : own.party.send ⟨a.recipient, transport⟩ writer device = (result, device', party))
    (nothing : ∀ bytes records, result = .ok (.completed bytes records) → records = 0) :
    ∃ c' next', Stands a { own with party } c' next' windows arrived := by
  obtain ⟨received, distinct, seen_iff, owed, owedOnce, names⟩ := stands.accounts
  obtain ⟨unsent, roster⟩ := Party.unsent_of_send stands.owedOnce nothing sent
  obtain ⟨c', known, left⟩ := unsent.known c stands.known
  have lanes : ∃ next' : TransportIndex → Nat, ∀ other ∈ a.transports, ∃ secret,
      a.Shares other secret ∧ c'.lanes.find? other = some { secret, next := next' other } := by
    rcases left.lanes with same | ⟨lane, before, used⟩
    · refine ⟨next, ?_⟩
      rw [same]
      exact stands.lanes
    · exact ⟨_, stands.lanes_insert before used⟩
  obtain ⟨next', lanes⟩ := lanes
  refine ⟨c', next', ?_⟩
  constructor
  case known => exact known
  case side => exact left.role.trans stands.side
  case lanes => exact lanes
  case listens =>
    rw [roster]
    exact stands.listens
  case accounts =>
    constructor
    case received => rw [left.received, received]
    case distinct => exact distinct
    case seen_iff => rwa [left.seen]
    case owed => rwa [left.acksOwed]
    case owedOnce => rwa [left.acksOwed]
    case names => rwa [left.outstanding]
  case formed =>
    rw [left.outstanding]
    exact stands.formed
  case written => exact stands.written

theorem Stands.send {δ : Type} {writer : WritingEnd δ} {held : δ → Bytes} {device device' : δ}
    {transport : TransportIndex} {party : Party} {bytes records : Nat}
    (stands : own.Stands a c next windows arrived)
    (faithful : writer.Faithful held) (empty : held device = [])
    (common : transport ∈ a.transports)
    (sent : own.party.send ⟨a.recipient, transport⟩ writer device =
      (.ok (.completed bytes records), device', party))
    (some : 0 < records) :
    ∃ c' next', Stands a { own with
      party
      written := own.written ++ [held device']
      formed := own.formed + (party.mailbox.outstandingBatches a.recipient -
        own.party.mailbox.outstandingBatches a.recipient) }
      c' next' windows arrived := by
  obtain ⟨received, distinct, seen_iff, owed, owedOnce, names⟩ := stands.accounts
  obtain ⟨secret, shared, lane⟩ := stands.lanes transport common
  obtain ⟨taken, c', -, roster, known, hands, carries⟩ :=
    Party.hands_of_send faithful empty stands.known lane owedOnce sent some
  rw [stands.side] at carries
  have fresh : party.mailbox.outstandingBatches a.recipient -
      own.party.mailbox.outstandingBatches a.recipient = Record.batches taken := by
    rw [Mailbox.outstandingBatches_of_conversation? known,
      Mailbox.outstandingBatches_of_conversation? stands.known, hands.outstanding,
      List.map_append, ← Multiset.coe_add]
    exact add_tsub_cancel_left _ _
  have grown : own.formed ≤ own.formed + Record.batches taken := Multiset.le_add_right _ _
  have earlier : c.acksOwed = taken.flatMap Record.acked ++ c'.acksOwed := hands.owed
  rw [fresh]
  refine ⟨c', Function.update next transport (next transport + 1), ?_⟩
  constructor
  case known => exact known
  case side => exact hands.role.trans stands.side
  case lanes => exact stands.lanes_insert lane hands.lanes
  case listens =>
    rw [roster]
    exact stands.listens
  case accounts =>
    constructor
    case received => rw [hands.received, received]
    case distinct => exact distinct
    case seen_iff => rwa [hands.seen]
    case owed =>
      intro id member
      refine owed id ?_
      rw [earlier]
      exact List.mem_append_right _ member
    case owedOnce => exact hands.distinct
    case names =>
      intro entry member
      rw [hands.outstanding] at member
      rcases List.mem_append.mp member with before | new
      · exact names entry before
      · exact Batch.names_of_filterMap taken entry new
  case formed =>
    rw [hands.outstanding, List.map_append, ← Multiset.coe_add, ← stands.formed, add_right_comm]
    rfl
  case written =>
    intro connection member
    rcases List.mem_append.mp member with before | new
    · have told : Tells a _ (arrived ++ []) connection :=
        (stands.written connection before).mono grown
      rwa [List.append_nil] at told
    · rw [List.mem_singleton.mp new]
      refine ⟨transport, secret, _, taken, shared, carries, fun batch among => ?_,
        fun id among => owed id ?_⟩
      · exact Multiset.mem_add.mpr (.inr (Multiset.mem_coe.mpr among))
      · rw [earlier]
        exact List.mem_append_left _ among

/-- What the records of an accepted connection leave. -/
theorem Stands.receiveAll {party : Party} {transport : TransportIndex} {secret : Secret}
    {window : Window} (stands : own.Stands a c next windows arrived)
    (shared : a.Shares transport secret) (records : List Record)
    (known : party.mailbox.conversation? a.recipient = some (c.receiveAll records))
    (listens : party.roster.Listens ⟨a.recipient, transport⟩ secret a.role window)
    (others : own.party.roster.KeepsOthers ⟨a.recipient, transport⟩ party.roster) :
    ∃ more,
      Stands a { own with
        party
        cleared := own.cleared + (own.party.mailbox.outstandingBatches a.recipient -
          party.mailbox.outstandingBatches a.recipient) }
        (c.receiveAll records) next (Function.update windows transport window)
        (arrived ++ more) ∧
      ∀ batch ∈ more, batch ∈ Record.batches records := by
  obtain ⟨more, accounts, fromRecords⟩ := stands.accounts.receiveAll records
  obtain ⟨side, lanes⟩ := c.side_receiveAll records
  have fewer : ((c.receiveAll records).outstanding.map (·.2) : Multiset Batch) ≤
      c.outstanding.map (·.2) := by
    rw [c.outstanding_receiveAll records]
    exact Multiset.coe_le.mpr (List.filter_sublist.map _).subperm
  refine ⟨more, ?_, fromRecords⟩
  rw [Mailbox.outstandingBatches_of_conversation? known,
    Mailbox.outstandingBatches_of_conversation? stands.known]
  constructor
  case known => exact known
  case side => exact side.trans stands.side
  case lanes =>
    rw [lanes]
    exact stands.lanes
  case listens =>
    intro other its common
    by_cases same : other = transport
    · subst same
      obtain rfl : secret = its := Except.ok.inj (shared.2.symm.trans common.2)
      rw [Function.update_self]
      exact listens
    · rw [Function.update_of_ne same]
      exact others (fun equal => same (congrArg Route.transport equal)) (stands.listens common)
  case accounts => exact accounts
  case formed =>
    rw [← stands.formed, add_left_comm, add_tsub_cancel_of_le fewer, add_comm]
  case written =>
    intro connection member
    exact (stands.written connection member).mono le_rfl

theorem Stands.receive {ρ : Type} {reader : ReadingEnd ρ} {left : ρ → Bytes} {device device' : ρ}
    {party : Party} {result : Except SessionFault Session.ReceiveOutcome}
    {theirs : Multiset Batch} (stands : own.Stands a c next windows arrived)
    (faithful : reader.Faithful left) (tells : Tells a.flip theirs arrivedThere (left device))
    (received : own.party.receive reader device = (result, device', party)) :
    ∃ c' windows' more,
      Stands a { own with
        party
        cleared := own.cleared + (own.party.mailbox.outstandingBatches a.recipient -
          party.mailbox.outstandingBatches a.recipient) }
        c' next windows' (arrived ++ more) ∧
      (∀ batch ∈ more, batch ∈ theirs) ∧
      ∀ batch ∈ own.party.mailbox.outstandingBatches a.recipient -
        party.mailbox.outstandingBatches a.recipient, batch.id ∈ arrivedThere.map Batch.id := by
  obtain ⟨transport, secret, stream, records, shared, carries, batches, acked⟩ := tells
  replace shared : a.Shares transport secret := shared
  cases answer : (windows transport).accept? stream with
  | none =>
      -- the connection was read before, or others ahead of it were
      obtain ⟨after, unrecognised⟩ :=
        Party.receive_of_refused faithful (stands.listens shared) carries answer
      rw [unrecognised] at received
      obtain ⟨-, -, rfl⟩ := received
      rw [tsub_self, add_zero]
      exact ⟨c, windows, [], (List.append_nil arrived).symm ▸ stands, by simp, by simp⟩
  | some window =>
      obtain ⟨after, party', completed, mailbox, listens, others⟩ :=
        Party.receive_of_accepted faithful (stands.listens shared) stands.known carries answer
      rw [completed] at received
      obtain ⟨-, -, rfl⟩ := received
      have known : party.mailbox.conversation? a.recipient = some (c.receiveAll records) := by
        rw [mailbox]
        exact Mailbox.conversation?_setConversation_self ..
      obtain ⟨more, stands', fromRecords⟩ := stands.receiveAll shared records known listens others
      refine ⟨_, _, more, stands', fun batch member => batches batch (fromRecords batch member),
        fun batch member => ?_⟩
      -- what it clears was outstanding under a name that the records acknowledge
      rw [Mailbox.outstandingBatches_of_conversation? known,
        Mailbox.outstandingBatches_of_conversation? stands.known,
        c.outstanding_receiveAll records] at member
      obtain ⟨entry, here, refused, rfl⟩ := exists_of_mem_sub member
      rw [← stands.accounts.names entry here]
      refine acked entry.1 ?_
      simpa using refused

/-- Whatever a party does, what is new to it was formed by the other one, and what it clears has the
    name of something that has arrived there. -/
theorem Stands.step {incoming : List Bytes} {theirs : Multiset Batch}
    (stands : own.Stands a c next windows arrived)
    (tells : ∀ bytes ∈ incoming, Tells a.flip theirs arrivedThere bytes)
    (step : Step a incoming own own') :
    ∃ c' next' windows' more, own'.Stands a c' next' windows' (arrived ++ more) ∧
      (∀ batch ∈ more, batch ∈ theirs) ∧ own.formed ≤ own'.formed ∧
      ∀ batch ∈ own'.cleared, batch ∈ own.cleared ∨ batch.id ∈ arrivedThere.map Batch.id := by
  have none : arrived ++ [] = arrived := List.append_nil _
  cases step with
  | prepare operation queues =>
      obtain ⟨c', after⟩ := stands.prepare operation queues
      exact ⟨c', _, _, [], none.symm ▸ after, by simp, le_rfl, fun _ => .inl⟩
  | sendNothing sent nothing =>
      obtain ⟨c', next', after⟩ := stands.sendNothing sent nothing
      exact ⟨c', next', _, [], none.symm ▸ after, by simp, le_rfl, fun _ => .inl⟩
  | send faithful empty common sent some =>
      obtain ⟨c', next', after⟩ := stands.send faithful empty common sent some
      exact ⟨c', next', _, [], none.symm ▸ after, by simp, Multiset.le_add_right _ _,
        fun _ => .inl⟩
  | receive faithful some received =>
      obtain ⟨c', windows', more, after, theirs, named⟩ :=
        stands.receive faithful (tells _ some) received
      refine ⟨c', _, windows', more, after, theirs, le_rfl, fun batch member => ?_⟩
      rcases Multiset.mem_add.mp member with before | new
      · exact .inl before
      · exact .inr (named batch new)

end Correspondent

/-! ## What both know -/

namespace Exchange

variable {acquaintance : Acquaintance} {x y : Exchange} {a b : Conversation}
  {there back : List Batch}

/-- What has arrived on either side was formed on the other, and what was cleared has the name of
    something that has arrived there. -/
structure Agrees (acquaintance : Acquaintance) (x : Exchange) (a b : Conversation)
    (there back : List Batch) : Prop where
  sender : ∃ next windows, x.sender.Stands acquaintance a next windows back
  recipient : ∃ next windows, x.recipient.Stands acquaintance.flip b next windows there
  thereFormed : ∀ batch ∈ there, batch ∈ x.sender.formed
  backFormed : ∀ batch ∈ back, batch ∈ x.recipient.formed
  thereCleared : ∀ batch ∈ x.sender.cleared, batch.id ∈ there.map Batch.id
  backCleared : ∀ batch ∈ x.recipient.cleared, batch.id ∈ back.map Batch.id

theorem Agrees.begins (begins : x.Begins acquaintance) :
    ∃ a b, x.Agrees acquaintance a b [] [] := by
  obtain ⟨a, size, -, sender⟩ := begins.sender.stands
  obtain ⟨b, size', -, recipient⟩ := begins.recipient.stands
  refine ⟨a, b, ⟨_, _, sender⟩, ⟨_, _, recipient⟩, by simp, by simp, ?_, ?_⟩
  · rw [begins.sender.unwritten]
    simp
  · rw [begins.recipient.unwritten]
    simp

/-- The two parties in each other's place. -/
theorem Agrees.flip (agrees : x.Agrees acquaintance a b there back) :
    Agrees acquaintance.flip { sender := x.recipient, recipient := x.sender } b a back there where
  sender := agrees.recipient
  recipient := acquaintance.flip_flip.symm ▸ agrees.sender
  thereFormed := agrees.backFormed
  backFormed := agrees.thereFormed
  thereCleared := agrees.backCleared
  backCleared := agrees.thereCleared

theorem Agrees.stepSender {own : Correspondent}
    (agrees : x.Agrees acquaintance a b there back)
    (step : Correspondent.Step acquaintance x.recipient.written x.sender own) :
    ∃ a' more, Agrees acquaintance { x with sender := own } a' b there (back ++ more) := by
  obtain ⟨next, windows, sender⟩ := agrees.sender
  obtain ⟨next', windows', recipient⟩ := agrees.recipient
  obtain ⟨a', nextAfter, windowsAfter, more, after, formed, grown, cleared⟩ :=
    sender.step recipient.written step
  refine ⟨a', more, ⟨_, _, after⟩, ⟨_, _, recipient⟩, ?_, ?_, ?_, ?_⟩
  · intro batch member
    exact Multiset.mem_of_le grown (agrees.thereFormed batch member)
  · intro batch member
    rcases List.mem_append.mp member with before | new
    · exact agrees.backFormed batch before
    · exact formed batch new
  · intro batch member
    rcases cleared batch member with before | named
    · exact agrees.thereCleared batch before
    · exact named
  · intro batch member
    rw [List.map_append]
    exact List.mem_append_left _ (agrees.backCleared batch member)

theorem Agrees.step (agrees : x.Agrees acquaintance a b there back)
    (step : Step acquaintance x y) :
    ∃ a' b' there' back', y.Agrees acquaintance a' b' there' back' := by
  cases step with
  | sender step =>
      obtain ⟨a', more, after⟩ := agrees.stepSender step
      exact ⟨a', b, there, _, after⟩
  | recipient step =>
      obtain ⟨b', more, after⟩ := agrees.flip.stepSender step
      have back := after.flip
      rw [acquaintance.flip_flip] at back
      exact ⟨a, b', _, _, back⟩

theorem Agrees.run (agrees : x.Agrees acquaintance a b there back)
    (run : Run acquaintance x y) :
    ∃ a' b' there' back', y.Agrees acquaintance a' b' there' back' := by
  induction run with
  | refl => exact ⟨a, b, there, back, agrees⟩
  | tail _ step ih =>
      obtain ⟨a', b', there', back', here⟩ := ih
      exact here.step step

/-- Cleared batches have arrived, each as often as it was cleared. -/
theorem Agrees.cleared_le (agrees : x.Agrees acquaintance a b there back)
    (distinct : (x.sender.formed.map Batch.id).Nodup) : x.sender.cleared ≤ there := by
  obtain ⟨next, windows, sender⟩ := agrees.sender
  have among : x.sender.cleared ≤ x.sender.formed := by
    rw [← sender.formed]
    exact Multiset.le_add_left _ _
  have once : x.sender.cleared.Nodup :=
    Multiset.nodup_of_le among (Multiset.Nodup.of_map _ distinct)
  refine (Multiset.le_iff_subset once).mpr fun batch member => ?_
  obtain ⟨other, arrived, same⟩ := List.mem_map.mp (agrees.thereCleared batch member)
  have formed := agrees.thereFormed other arrived
  -- both were formed, and names tell those batches apart
  obtain rfl : other = batch := Multiset.inj_on_of_nodup_map distinct other formed batch
    (Multiset.mem_of_le among member) same
  exact Multiset.mem_coe.mpr arrived

/-- Whatever two parties queue for each other, publish, write, lose, read late or again: as long as
    the batches that the sender has formed have different names, the messages of the batches that
    acknowledgements have cleared have arrived, each at least as often as it was cleared. -/
theorem messagesOf_cleared_le {begun : Exchange} (begins : begun.Begins acquaintance)
    (run : Run acquaintance begun x) (distinct : (x.sender.formed.map Batch.id).Nodup) :
    Batch.messagesOf x.sender.cleared ≤
      x.recipient.party.mailbox.received acquaintance.sender := by
  obtain ⟨a₀, b₀, agreed⟩ := Agrees.begins begins
  obtain ⟨a, b, there, back, agrees⟩ := agreed.run run
  obtain ⟨next, windows, recipient⟩ := agrees.recipient
  obtain ⟨rest, whole⟩ := Multiset.le_iff_exists_add.mp (agrees.cleared_le distinct)
  have received : (x.recipient.party.mailbox.received acquaintance.sender : Multiset Bytes) =
      Batch.messagesOf there := by
    rw [Mailbox.received, show Mailbox.conversation? _ acquaintance.sender = _ from recipient.known,
      Option.elim_some, recipient.accounts.received, Batch.messagesOf, Multiset.coe_bind]
  rw [received, whole, Batch.messagesOf, Batch.messagesOf, Multiset.add_bind]
  exact Multiset.le_add_right _ _

/-! ## Batches acknowledged -/

private theorem eq_batches_of_length {records : List Record} {batches : List Batch}
    (all : Record.batches records = batches) (count : records.length = batches.length) :
    records = batches.map .batch := by
  induction records generalizing batches with
  | nil =>
      subst all
      rfl
  | cons record records ih =>
      have short : (Record.batches records).length ≤ records.length := by
        rw [Record.batches, List.length_map]
        exact List.length_filterMap_le ..
      have here : Record.batches (record :: records) =
          Record.batches [record] ++ Record.batches records :=
        Record.batches_append [record] records
      rw [here] at all
      cases record with
      | transportUpdate | subscriptionUpdate | ack =>
          rw [show batches = Record.batches records from all.symm, List.length_cons] at count
          omega
      | batch batch =>
          subst all
          rw [show Record.batches [Record.batch batch] = [batch] from rfl] at count ⊢
          rw [List.singleton_append, List.map_cons, ← ih rfl (Nat.succ.inj count)]

private theorem send_with_roster {δ : Type} {writer : WritingEnd δ} {route : Route} {m : Mailbox}
    {party : Party} {device device' : δ} {result : Except SessionFault Session.SendOutcome}
    (sent : Party.send { mailbox := m } route writer device = (result, device', party))
    (roster : Roster) :
    Party.send { mailbox := m, roster } route writer device =
      (result, device', { party with roster }) := by
  simp only [Party.send, Party.sending] at sent ⊢
  obtain ⟨rfl, rfl, rfl⟩ := sent
  rfl

section

variable {transport : TransportIndex} {c : Conversation} {bytes : Nat}
  {writer : WritingEnd Memory.Outbound} {device : Memory.Outbound} {party : Party}

/-- Batches that have come to wait for their acknowledgement with a connection of as many records
    are what the connection carries. -/
theorem batches_sent {own : Party} {contact : ContactId} {secret : Secret} {next : Nat}
    {batches : List Batch} (found : own.mailbox.conversation? contact = some c)
    (lane : c.lanes.find? transport = .some { secret, next }) (once : c.acksOwed.Nodup)
    (faithful : writer.Faithful Memory.Outbound.bytes) (some : 0 < batches.length)
    (sent : own.send ⟨contact, transport⟩ writer {} =
      (.ok (.completed bytes batches.length), device, party))
    (outstanding : (party.mailbox.conversation? contact).map (·.outstanding.map (·.2)) =
      .some (c.outstanding.map (·.2) ++ batches)) :
    ∃ c', party.mailbox.conversation? contact = .some c' ∧ party.roster = own.roster ∧
      Conversation.Hands
        { c with lanes := c.lanes.insert transport { secret, next := next + 1 } }
        (batches.map .batch) c' ∧
      Session.Carries secret next c.role (batches.map .batch) device.bytes := by
  obtain ⟨taken, c', count, roster, known, hands, carries⟩ :=
    Party.hands_of_send faithful rfl found lane once sent some
  rw [known, Option.map_some, Option.some.injEq, hands.outstanding, List.map_append] at outstanding
  obtain rfl : taken = batches.map .batch :=
    eq_batches_of_length (List.append_cancel_left outstanding) count
  exact ⟨c', known, roster, hands, carries⟩

/-- A connection after which no acknowledgement is owed carries all that were. -/
private theorem acks_sent {own : Party} {contact : ContactId} {secret : Secret}
    {next records : Nat} (found : own.mailbox.conversation? contact = some c)
    (lane : c.lanes.find? transport = some { secret, next }) (once : c.acksOwed.Nodup)
    (faithful : writer.Faithful Memory.Outbound.bytes) (some : 0 < records)
    (sent : own.send ⟨contact, transport⟩ writer {} =
      (.ok (.completed bytes records), device, party))
    (paid : (party.mailbox.conversation? contact).map (·.acksOwed) = .some []) :
    ∃ acks, acks.flatMap Record.acked = c.acksOwed ∧
      Session.Carries secret next c.role acks device.bytes ∧
      party.mailbox.received contact = c.received := by
  obtain ⟨acks, c', -, -, known, hands, carries⟩ :=
    Party.hands_of_send faithful rfl found lane once sent some
  replace known : party.mailbox.conversation? contact = .some c' := known
  have received : party.mailbox.received contact = c.received := by
    rw [Mailbox.received, known]
    exact hands.received
  rw [known, Option.map_some, Option.some.injEq] at paid
  refine ⟨acks, ?_, carries, received⟩
  have all : c.acksOwed = acks.flatMap Record.acked ++ c'.acksOwed := hands.owed
  rw [all, paid, List.append_nil]

end

section

variable {transport : TransportIndex} {batches : List Batch} {bytes bytes' answers : Nat}
  {writer writer' : WritingEnd Memory.Outbound} {device device' : Memory.Outbound}
  {party other : Party} {read : Mailbox}

/-- A first connection with batches is read whole, and the lane for the answer has the secret that
    it came with. -/
private theorem reads_batches {a : Acquaintance} {own : Correspondent} {c : Conversation}
    {size : Nat} {secret : Secret} (some : 0 < size)
    (stands : own.Stands a c (fun _ => 0) (fun _ => .fresh size 0) [])
    (shared : a.Shares transport secret)
    (carries : Session.Carries secret 0 a.role.peer (batches.map .batch) device.bytes)
    (got : (own.party.mailbox.update a.recipient fun c =>
      ((), c.receiveAll (batches.map .batch))).2 = read) :
    ∃ inbound reader,
      own.party.receive (Memory.readingEnd {}) { rest := device.bytes } =
        (.ok (.completed a.recipient (batches.map Record.batch).length), inbound, reader) ∧
      reader.mailbox = read ∧
      read.conversation? a.recipient = .some (c.receiveAll (batches.map .batch)) ∧
      (c.receiveAll (batches.map .batch)).role = a.role ∧
      (c.receiveAll (batches.map .batch)).acksOwed.Nodup ∧
      (c.receiveAll (batches.map .batch)).lanes.find? transport = .some { secret } := by
  have source := Memory.readingEnd_faithful Memory.ReadLimits.harmless_default
  have front : Memory.Inbound.rest { rest := device.bytes } = device.bytes := rfl
  obtain ⟨inbound, reader, received, mailbox, -⟩ := Party.receive_of_accepted source
    (stands.listens shared) stands.known (front.symm ▸ carries) (Window.accept?_fresh some 0)
  have update : read =
      own.party.mailbox.setConversation a.recipient (c.receiveAll (batches.map .batch)) := by
    rw [← got, Mailbox.update_of_conversation? stands.known]
  have held : read.conversation? a.recipient = .some (c.receiveAll (batches.map .batch)) := by
    rw [update, Mailbox.conversation?_setConversation_self]
  obtain ⟨side, lanes⟩ := c.side_receiveAll (batches.map .batch)
  obtain ⟨_, accounts, -⟩ := stands.accounts.receiveAll (batches.map .batch)
  refine ⟨inbound, reader, received, mailbox.trans update.symm, held, side.trans stands.side,
    accounts.owedOnce, ?_⟩
  obtain ⟨its, common, found⟩ := stands.lanes transport shared.1
  obtain rfl : secret = its := Except.ok.inj (shared.2.symm.trans common.2)
  rw [lanes]
  exact found

/-- After a first connection that acknowledges all that is outstanding, nothing is. -/
private theorem reads_acks {own : Party} {contact : ContactId} {c : Conversation} {role : Role}
    {size : Nat} {secret : Secret} {acks : List Record} (some : 0 < size)
    (listens : own.roster.Listens ⟨contact, transport⟩ secret role (.fresh size 0))
    (known : own.mailbox.conversation? contact = .some c)
    (carries : Session.Carries secret 0 role.peer acks device.bytes)
    (names : ∀ entry ∈ c.outstanding, entry.1 = entry.2.id)
    (acked : ∀ batch ∈ c.outstanding.map (·.2), batch.id ∈ acks.flatMap Record.acked) :
    ∃ inbound reader,
      own.receive (Memory.readingEnd {}) { rest := device.bytes } =
        (.ok (.completed contact acks.length), inbound, reader) ∧
      reader.mailbox.outstandingBatches contact = 0 := by
  have source := Memory.readingEnd_faithful Memory.ReadLimits.harmless_default
  have front : Memory.Inbound.rest { rest := device.bytes } = device.bytes := rfl
  obtain ⟨inbound, reader, received, mailbox, -⟩ := Party.receive_of_accepted source
    listens known (front.symm ▸ carries) (Window.accept?_fresh some 0)
  have after : reader.mailbox.conversation? contact = .some (c.receiveAll acks) := by
    rw [mailbox]
    exact Mailbox.conversation?_setConversation_self ..
  refine ⟨inbound, reader, received, ?_⟩
  rw [Mailbox.outstandingBatches_of_conversation? after,
    Conversation.outstanding_acknowledged names acked]
  rfl

/-- One connection with batches is read at once, and so is the one with their acknowledgements. -/
private theorem run_acknowledged {a b : Conversation} {size size' : Nat}
    (some : 0 < size) (some' : 0 < size')
    (sender : x.sender.Stands acquaintance a (fun _ => 0) (fun _ => .fresh size 0) [])
    (recipient : x.recipient.Stands acquaintance.flip b (fun _ => 0) (fun _ => .fresh size' 0) [])
    (nothing : x.sender.formed = 0) (common : transport ∈ acquaintance.transports)
    (batches_some : 0 < batches.length)
    (faithful : writer.Faithful Memory.Outbound.bytes)
    (faithful' : writer'.Faithful Memory.Outbound.bytes)
    (sent : x.sender.party.send ⟨acquaintance.recipient, transport⟩ writer {} =
      (.ok (.completed bytes batches.length), device, party))
    (outstanding : (party.mailbox.conversation? acquaintance.recipient).map
      (·.outstanding.map (·.2)) = .some batches)
    (got : (x.recipient.party.mailbox.update acquaintance.sender fun c =>
      ((), c.receiveAll (batches.map .batch))).2 = read)
    (owed : ∀ batch ∈ batches,
      batch.id ∈ (read.conversation? acquaintance.sender).elim [] (·.acksOwed))
    (answered : Party.send { mailbox := read } ⟨acquaintance.sender, transport⟩ writer' {} =
      (.ok (.completed bytes' answers), device', other)) (answers_some : 0 < answers)
    (paid : (other.mailbox.conversation? acquaintance.sender).map (·.acksOwed) = .some []) :
    ∃ y, Run acquaintance x y ∧ y.sender.formed = batches ∧ y.sender.cleared = batches ∧
      y.recipient.party.mailbox.received acquaintance.sender =
        read.received acquaintance.sender := by
  have source := Memory.readingEnd_faithful Memory.ReadLimits.harmless_default
  have empty : ({} : Memory.Outbound).bytes = [] := rfl
  have known : x.sender.party.mailbox.conversation? acquaintance.recipient = .some a :=
    sender.known
  have none : a.outstanding = [] := sender.outstanding_eq_nil nothing
  obtain ⟨secret, shared, free⟩ := sender.lanes transport common
  obtain ⟨a', after, roster, hands, carries⟩ := batches_sent known free sender.accounts.owedOnce
    faithful batches_some sent (by rw [outstanding, none, List.map_nil, List.nil_append])
  rw [sender.side] at carries
  have names : ∀ entry ∈ a'.outstanding, entry.1 = entry.2.id := by
    intro entry member
    rw [hands.outstanding, none, List.nil_append] at member
    exact Batch.names_of_filterMap _ entry member
  have whole : a'.outstanding.map (·.2) = batches := by
    rwa [after, Option.map_some, Option.some.injEq] at outstanding
  -- the recipient reads the batches, and owes an acknowledgement for each of them
  rw [← Role.peer_peer acquaintance.role] at carries
  obtain ⟨inbound, reader, received, mailbox, held, side, once, lane⟩ :=
    reads_batches some' recipient (shared : acquaintance.flip.Shares transport secret) carries got
  replace held : read.conversation? acquaintance.sender =
      .some (b.receiveAll (batches.map .batch)) := held
  obtain ⟨acks, named, carries', kept⟩ :=
    acks_sent held lane once faithful' answers_some answered paid
  rw [side] at carries'
  -- the sender reads the acknowledgements, and nothing is outstanding any more
  have listens : party.roster.Listens ⟨acquaintance.recipient, transport⟩ secret acquaintance.role
      (.fresh size 0) := by
    rw [roster]
    exact sender.listens shared
  obtain ⟨inbound', last, received', cleared⟩ := reads_acks some listens after carries' names <| by
    intro batch member
    have its := owed batch (whole ▸ member)
    rwa [held, Option.elim_some, ← named] at its
  have before : x.sender.party.mailbox.outstandingBatches acquaintance.recipient +
      x.sender.cleared = 0 := by
    rw [Mailbox.outstandingBatches_of_conversation? known, sender.formed, nothing]
  have between : party.mailbox.outstandingBatches acquaintance.recipient = batches := by
    rw [Mailbox.outstandingBatches_of_conversation? after, whole]
  have replied := send_with_roster answered reader.roster
  rw [← mailbox] at replied
  have there : Run acquaintance x _ :=
    .single (.sender (.send faithful empty common sent batches_some))
  have got := there.tail (.recipient (.receive source (List.mem_append_right _ (by simp)) received))
  have back := got.tail (.recipient (.send faithful' empty common replied answers_some))
  have done := back.tail (.sender (.receive source (List.mem_append_right _ (by simp)) received'))
  refine ⟨_, done, ?_, ?_, ?_⟩
  · change x.sender.formed + (party.mailbox.outstandingBatches acquaintance.recipient -
      x.sender.party.mailbox.outstandingBatches acquaintance.recipient) = batches
    rw [nothing, zero_add, between, (add_eq_zero.mp before).1, tsub_zero]
  · change x.sender.cleared + (party.mailbox.outstandingBatches acquaintance.recipient -
      last.mailbox.outstandingBatches acquaintance.recipient) = batches
    rw [(add_eq_zero.mp before).2, zero_add, between, cleared, tsub_zero]
  · rw [Mailbox.received, Mailbox.received, held]
    exact kept

/-- Two messages are queued, written as one connection, read and acknowledged. -/
private theorem run_queued_acknowledged {begun : Exchange} (begins : begun.Begins acquaintance)
    (common : transport ∈ acquaintance.transports) (first second : Bytes) (batches : List Batch)
    (bytes bytes' answers : Nat) (batches_some : 0 < batches.length) {ready : Mailbox}
    (faithful : writer.Faithful Memory.Outbound.bytes)
    (faithful' : writer'.Faithful Memory.Outbound.bytes)
    (queued : ((begun.sender.party.mailbox.queue acquaintance.recipient first).2.queue
      acquaintance.recipient second).2 = ready)
    (sent : Party.send { begun.sender.party with mailbox := ready }
      ⟨acquaintance.recipient, transport⟩ writer {} =
        (.ok (.completed bytes batches.length), device, party))
    (outstanding : (party.mailbox.conversation? acquaintance.recipient).map
      (·.outstanding.map (·.2)) = .some batches)
    (got : (begun.recipient.party.mailbox.update acquaintance.sender fun c =>
      ((), c.receiveAll (batches.map .batch))).2 = read)
    (owed : ∀ batch ∈ batches,
      batch.id ∈ (read.conversation? acquaintance.sender).elim [] (·.acksOwed))
    (answered : Party.send { mailbox := read } ⟨acquaintance.sender, transport⟩ writer' {} =
      (.ok (.completed bytes' answers), device', other)) (answers_some : 0 < answers)
    (paid : (other.mailbox.conversation? acquaintance.sender).map (·.acksOwed) = .some []) :
    ∃ x, Run acquaintance begun x ∧ x.sender.formed = batches ∧ x.sender.cleared = batches ∧
      x.recipient.party.mailbox.received acquaintance.sender =
        read.received acquaintance.sender := by
  obtain ⟨a, size, some, sender⟩ := begins.sender.stands
  obtain ⟨b, size', some', recipient⟩ := begins.recipient.stands
  obtain ⟨a', once⟩ := sender.prepare (.queue acquaintance.recipient first) rfl
  obtain ⟨a'', twice⟩ := once.prepare (.queue acquaintance.recipient second) rfl
  have nothing : begun.sender.formed = 0 := by rw [begins.sender.unwritten]
  have prepared : Run acquaintance begun _ :=
    (Relation.ReflTransGen.single
      (.sender (.prepare (.queue acquaintance.recipient first) rfl))).tail
      (.sender (.prepare (.queue acquaintance.recipient second) rfl))
  subst queued
  obtain ⟨x, acknowledged, results⟩ := run_acknowledged (x := ⟨_, begun.recipient⟩) some some'
    twice recipient nothing common batches_some faithful faithful' sent outstanding got owed
    answered answers_some paid
  exact ⟨x, prepared.trans acknowledged, results⟩

end

/-- Two parties that share one transport. -/
def neighbours : Acquaintance :=
  { root := .repeated 5, role := .alice, transports := [⟨0⟩], rotations := 0, recipient := ⟨2⟩,
    sender := ⟨1⟩ }

/-- A party that was told of one of the neighbours. -/
def acquainted (contact : ContactId) (role : Role) : Correspondent :=
  let m := (({} : Mailbox).addContact contact (.repeated 5) role [⟨0⟩]).2
  { party := { mailbox := m, roster := (m.expectIncoming (.ofWindow Window.defaultSize)).2 } }

/-- The neighbours, before either has written. -/
def conversing : Exchange :=
  { sender := acquainted ⟨2⟩ .alice, recipient := acquainted ⟨1⟩ .bob }

set_option maxRecDepth 100000 in
theorem begins_conversing : conversing.Begins neighbours := by
  -- there is one lane, so no other entry can claim a tag
  have apart : ∀ {own : Correspondent} {contact : ContactId} {role : Role},
      own.party.roster.entries.entries.map (·.1) = [⟨contact, ⟨0⟩⟩] →
        ∀ {transport secret}, neighbours.Shares transport secret →
          own.party.roster.TellsApart ⟨contact, transport⟩ secret role := by
    intro own contact role only transport secret shared stream tag other its made found different
    have member := List.mem_map_of_mem (f := (·.1)) ((Table.find?_eq_some_iff ..).mp found)
    rw [only] at member
    obtain rfl : transport = ⟨0⟩ := List.mem_singleton.mp shared.1
    exact absurd (List.mem_singleton.mp member) different
  constructor
  · have added : ({} : Mailbox).addContact ⟨2⟩ (.repeated 5) .alice [⟨0⟩] =
        (.ok (), conversing.sender.party.mailbox) := eq_of_toOption (by decide +kernel)
    have expects : conversing.sender.party.mailbox.expectIncoming (.ofWindow Window.defaultSize) =
        (.ok (), conversing.sender.party.roster) := eq_of_toOption (by decide +kernel)
    exact ⟨.added added, ⟨_, expects⟩, apart (by decide +kernel), rfl⟩
  · have added : ({} : Mailbox).addContact ⟨1⟩ (.repeated 5) .bob [⟨0⟩] =
        (.ok (), conversing.recipient.party.mailbox) := eq_of_toOption (by decide +kernel)
    have expects : conversing.recipient.party.mailbox.expectIncoming
        (.ofWindow Window.defaultSize) = (.ok (), conversing.recipient.party.roster) :=
      eq_of_toOption (by decide +kernel)
    exact ⟨.added added, ⟨_, expects⟩, apart (by decide +kernel), rfl⟩

set_option maxRecDepth 100000 in
/-- A short frame holds one message, so that each of them is a batch of its own. -/
private theorem exists_run_acknowledged {second : Bytes} {arrived : List Bytes}
    (known : second = [110] ∧ arrived = [[109], [110]] ∨ second = [109] ∧ arrived = [[109]]) :
    ∃ x, Run neighbours conversing x ∧
      x.sender.formed = [Batch.mk [[109]], Batch.mk [second]] ∧
      x.sender.cleared = [Batch.mk [[109]], Batch.mk [second]] ∧
      x.recipient.party.mailbox.received ⟨1⟩ = arrived := by
  have writer := Memory.writingEnd_faithful {} 1000 56
  have writer' := Memory.writingEnd_faithful {} 1000 Frame.maxLength
  have common : (⟨0⟩ : TransportIndex) ∈ neighbours.transports := List.mem_singleton_self _
  rcases known with ⟨rfl, rfl⟩ | ⟨rfl, rfl⟩
  · obtain ⟨x, run, formed, cleared, received⟩ :=
      run_queued_acknowledged begins_conversing common [109] [110] [⟨[[109]]⟩, ⟨[[110]]⟩] 164 173 1
        (by decide) writer writer' rfl (eq_of_toOption (by decide +kernel)) (by decide +kernel) rfl
        (by decide +kernel) (eq_of_toOption (by decide +kernel)) (by decide) (by decide +kernel)
    refine ⟨x, run, formed, cleared, received.trans ?_⟩
    decide +kernel
  · obtain ⟨x, run, formed, cleared, received⟩ :=
      run_queued_acknowledged begins_conversing common [109] [109] [⟨[[109]]⟩, ⟨[[109]]⟩] 164 139 1
        (by decide) writer writer' rfl (eq_of_toOption (by decide +kernel)) (by decide +kernel) rfl
        (by decide +kernel) (eq_of_toOption (by decide +kernel)) (by decide) (by decide +kernel)
    refine ⟨x, run, formed, cleared, received.trans ?_⟩
    decide +kernel

/-- Two batches of different messages are formed, and both are cleared. -/
theorem messagesOf_cleared_le_different :
    ∃ acquaintance begun x, begun.Begins acquaintance ∧ Run acquaintance begun x ∧
      (x.sender.formed.map Batch.id).Nodup ∧
      x.sender.cleared = [Batch.mk [[109]], Batch.mk [[110]]] ∧
      Batch.messagesOf x.sender.cleared ≤
        x.recipient.party.mailbox.received acquaintance.sender := by
  obtain ⟨x, run, formed, cleared, -⟩ := exists_run_acknowledged (.inl ⟨rfl, rfl⟩)
  have distinct : (x.sender.formed.map Batch.id).Nodup := by
    rw [formed]
    decide +kernel
  exact ⟨neighbours, conversing, x, begins_conversing, run, distinct, cleared,
    messagesOf_cleared_le begins_conversing run distinct⟩

/-- One acknowledgement clears two batches of the same message, which has arrived once. -/
theorem not_forall_cleared_le :
    ¬ ∀ acquaintance begun x, begun.Begins acquaintance → Run acquaintance begun x →
      Batch.messagesOf x.sender.cleared ≤
        x.recipient.party.mailbox.received acquaintance.sender := by
  intro all
  obtain ⟨x, run, -, cleared, received⟩ := exists_run_acknowledged (.inr ⟨rfl, rfl⟩)
  have within := all neighbours conversing x begins_conversing run
  rw [cleared, show x.recipient.party.mailbox.received neighbours.sender = _ from received]
    at within
  have fewer := Multiset.card_le_card within
  exact absurd fewer (by decide)

end Exchange

end Courier
