import Courier.Proofs.Connection.Window
import Courier.Proofs.Session.Failure
import Courier.Proofs.Session.OneWay
import Mathlib.Logic.Function.Iterate

/-! # Stream numbers that are never seen

A sender uses up one stream number for every connection that it has keys for,
also if the connection is abandoned, fails, or ends up without records. Such a
number stays open in the window of the recipient for good. So connections that
carry records, read in the order of writing, are recognised up to the one that
lies a whole window behind the first number lost in this way, and from there on
none is.
-/

namespace Courier

/-- A connection with records, and the stream number that it used. -/
structure Parcel where
  stream : Nat
  bytes : Bytes
  records : Nat

/-- Two parties, and the connections with records from one to the other. -/
structure Channel where
  sender : Party
  recipient : Party
  /-- Connections written and not read, oldest first. -/
  flight : List Parcel := []
  /-- The stream numbers of all connections with records that were written. -/
  carried : List Nat := []

/-- Two parties were told of each other, and the recipient expects what is to come. -/
structure Pairing.Meet (p : Pairing) (size : Nat) (sender recipient : Party) : Prop where
  senderTold : ∃ transports, p.transport ∈ transports ∧
    sender.mailbox.Introduced p.recipient p.root p.role transports p.rotations
  recipientTold : ∃ transports, p.transport ∈ transports ∧
    recipient.mailbox.Introduced p.sender p.root p.role.peer transports p.rotations
  filled : recipient.mailbox.expectIncoming (.ofWindow size) = (.ok (), recipient.roster)
  apart : ∀ secret, p.root.inPeriod p.transport p.rotations = .ok secret →
    recipient.roster.TellsApart p.inbound secret p.role

namespace Channel

variable (p : Pairing)

structure Begins (size : Nat) (x : Channel) : Prop where
  meet : p.Meet size x.sender x.recipient
  flight : x.flight = []
  carried : x.carried = []

inductive Step : Channel → Channel → Prop where
  /-- The mailbox of the sender may change in any way but in the lane of the route. -/
  | besides {x : Channel} (operation : Mailbox.Operation)
      (keeps : (operation.apply x.sender.mailbox).lane? p.outbound =
        x.sender.mailbox.lane? p.outbound) :
      Step x { x with
        sender := { x.sender with mailbox := operation.apply x.sender.mailbox } }
  /-- A connection that was abandoned, failed, or was completed without records. -/
  | sendNothing {δ : Type} {writer : WritingEnd δ} {device device' : δ} {x : Channel}
      {sender : Party} {result : Except SessionFault Session.SendOutcome}
      (sent : x.sender.send p.outbound writer device = (result, device', sender))
      (nothing : ∀ bytes records, result = .ok (.completed bytes records) → records = 0) :
      Step x { x with sender }
  | send {δ : Type} {writer : WritingEnd δ} {held : δ → Bytes} {device device' : δ} {x : Channel}
      {sender : Party} {stream bytes records : Nat} (faithful : writer.Faithful held)
      (empty : held device = []) (next : x.sender.mailbox.nextStream p.outbound = .ok stream)
      (sent : x.sender.send p.outbound writer device =
        (.ok (.completed bytes records), device', sender))
      (some : 0 < records) :
      Step x { x with
        sender
        flight := x.flight ++ [{ stream, bytes := held device', records }]
        carried := x.carried ++ [stream] }
  | receive {ρ : Type} {reader : ReadingEnd ρ} {left : ρ → Bytes} {device : ρ} {x : Channel}
      {s : Parcel} {flight : List Parcel} (faithful : reader.Faithful left)
      (first : x.flight = s :: flight) (bytes : left device = s.bytes) :
      Step x { x with recipient := (x.recipient.receive reader device).2.2, flight }

/-- Any number of steps. -/
abbrev Run : Channel → Channel → Prop :=
  Relation.ReflTransGen (Step p)

/-- On the way from `begun` to `x`, keys of this stream were handed out for a connection that was
    abandoned, failed, or was completed without records. -/
inductive Loses (begun x : Channel) (stream : Nat) : Prop where
  | between {y : Channel} {δ : Type} {writer : WritingEnd δ} {device device' : δ} {sender : Party}
      {result : Except SessionFault Session.SendOutcome} {context : Context} {mailbox : Mailbox}
      (before : Run p begun y)
      (handed : y.sender.mailbox.context p.outbound = (.ok (some context), mailbox))
      (number : context.stream = stream)
      (sent : y.sender.send p.outbound writer device = (result, device', sender))
      (nothing : ∀ bytes records, result = .ok (.completed bytes records) → records = 0)
      (after : Run p { y with sender } x)

/-- All stream numbers below `next`, and no others, were used up on the way from `begun` to `x`. -/
structure Counts (begun x : Channel) (next : Nat) : Prop where
  upTo : x.sender.mailbox.nextStream p.outbound = .ok next
  /-- Whoever is handed keys uses up their stream, whatever becomes of the connection. -/
  uses : ∀ {context mailbox},
    x.sender.mailbox.context p.outbound = (.ok (some context), mailbox) →
      context.stream = next ∧ ∀ {δ : Type} (writer : WritingEnd δ) (device : δ),
        (x.sender.send p.outbound writer device).2.2.mailbox.nextStream p.outbound =
          .ok (next + 1)
  /-- Nothing is used up without keys. -/
  keeps :
    (∀ context mailbox, x.sender.mailbox.context p.outbound ≠ (.ok (some context), mailbox)) →
      ∀ {δ : Type} (writer : WritingEnd δ) (device : δ),
        (x.sender.send p.outbound writer device).2.2.mailbox.nextStream p.outbound = .ok next
  used_iff : ∀ stream, stream < next ↔ stream ∈ x.carried ∨ Loses p begun x stream
  apart : ∀ stream ∈ x.carried, ¬ Loses p begun x stream

end Channel

/-! ## Numbers that were carried -/

namespace Window

variable {size stream later : Nat} {carried read rest : List Nat}

/-- Numbers from `stream` on do not matter to it. -/
theorem near_append (notBefore : stream ≤ later) :
    Near size (· ∈ carried ++ [later]) stream ↔ Near size (· ∈ carried) stream := by
  have same : ∀ earlier < stream, earlier ∈ carried ++ [later] ↔ earlier ∈ carried := by
    intro earlier before
    have other : earlier ≠ later := by omega
    simp [other]
  constructor
  · intro near earlier before open_
    exact near earlier before (mt (same earlier before).mp open_)
  · intro near earlier before open_
    exact near earlier before (mt (same earlier before).mpr open_)

/-- A recipient that reads in order refuses a number only for one that was never carried. -/
theorem near_iff_of_read (ascending : (read ++ stream :: rest).Pairwise (· < ·)) :
    Near size (fun n => n ∈ read ∧ Near size (· ∈ read ++ stream :: rest) n) stream ↔
      Near size (· ∈ read ++ stream :: rest) stream := by
  constructor
  · intro near earlier before open_
    exact near earlier before fun accepted => open_ (List.mem_append_left _ accepted.1)
  · intro near earlier before refused
    by_cases carried : earlier ∈ read ++ stream :: rest
    · have here : earlier ∈ read := by
        rcases List.mem_append.mp carried with here | after
        · exact here
        · have behind := (List.pairwise_cons.mp (List.pairwise_append.mp ascending).2.1).1
          rcases List.mem_cons.mp after with rfl | after
          · exact absurd before (Nat.lt_irrefl _)
          · exact absurd (behind earlier after) (Nat.lt_asymm before)
      -- it was refused for a number lost before it, and that one is lost for `stream` too
      have lags : ¬ Near size (· ∈ read ++ stream :: rest) earlier := fun its => refused ⟨here, its⟩
      simp only [Near, not_forall, Nat.not_lt] at lags
      obtain ⟨lost, below, open_, far⟩ := lags
      have close := near lost (Nat.lt_trans below before) open_
      omega
    · exact near earlier before carried

/-- The next number, read in order, is accepted exactly if none that was not carried lags behind it,
    and counts as read either way. -/
theorem Holds.readNext {window : Window}
    (holds : window.Holds size fun n => n ∈ read ∧ Near size (· ∈ read ++ stream :: rest) n)
    (ascending : (read ++ stream :: rest).Pairwise (· < ·)) :
    (∃ window', Near size (· ∈ read ++ stream :: rest) stream ∧
      window.accept? stream = some window' ∧
      window'.Holds size fun n =>
        n ∈ read ++ [stream] ∧ Near size (· ∈ read ++ stream :: rest) n) ∨
    ¬ Near size (· ∈ read ++ stream :: rest) stream ∧ window.accept? stream = none ∧
      window.Holds size fun n =>
        n ∈ read ++ [stream] ∧ Near size (· ∈ read ++ stream :: rest) n := by
  have new : stream ∉ read := by
    intro member
    exact Nat.lt_irrefl _
      ((List.pairwise_append.mp ascending).2.2 _ member _ (List.mem_cons_self ..))
  by_cases near : Near size (· ∈ read ++ stream :: rest) stream
  · obtain ⟨window', accepted, holds'⟩ :=
      holds.accept (fun before => new before.1) ((near_iff_of_read ascending).mpr near)
    refine .inl ⟨window', near, accepted, holds'.congr fun n => ?_⟩
    rw [List.mem_append, List.mem_singleton]
    constructor
    · rintro (⟨member, its⟩ | rfl)
      · exact ⟨.inl member, its⟩
      · exact ⟨.inr rfl, near⟩
    · rintro ⟨member | rfl, its⟩
      · exact .inl ⟨member, its⟩
      · exact .inr rfl
  · have refused := holds.refuse (.inr (mt (near_iff_of_read ascending).mp near))
    refine .inr ⟨near, refused, holds.congr fun n => ?_⟩
    rw [List.mem_append, List.mem_singleton]
    constructor
    · rintro ⟨member, its⟩
      exact ⟨.inl member, its⟩
    · rintro ⟨member | rfl, its⟩
      · exact ⟨member, its⟩
      · exact absurd its near

end Window

/-! ## What holds all along -/

theorem Mailbox.nextStream_of_lane? {m : Mailbox} {route : Route} {role : Role} {lane : Lane}
    (known : m.lane? route = some (role, lane)) : m.nextStream route = .ok lane.next := by
  obtain ⟨c, found, here, -⟩ := (lane?_eq_some_iff ..).mp known
  simp only [nextStream, ask_of_conversation? found, bind, Except.bind, here]
  rfl

namespace Pairing

variable {p : Pairing} {size : Nat} {sender recipient : Party}

theorem Meet.starts (meet : p.Meet size sender recipient) :
    ∃ secret, p.root.inPeriod p.transport p.rotations = .ok secret ∧
      (∃ lanes, sender.mailbox.conversation? p.recipient =
          some { role := p.role, period := p.rotations, lanes } ∧
        lanes.find? p.transport = some { secret }) ∧
      (∃ lanes, recipient.mailbox.conversation? p.sender =
          some { role := p.role.peer, period := p.rotations, lanes } ∧
        lanes.find? p.transport = some { secret }) ∧
      recipient.roster.Listens p.inbound secret p.role.peer (.fresh (max size 1) 0) := by
  obtain ⟨⟨transports, here, introduced⟩, ⟨transports', there, introduced'⟩, filled, apart⟩ := meet
  obtain ⟨lanes, known, secrets⟩ := introduced.conversation
  obtain ⟨secret, derived, lane⟩ := secrets p.transport here
  obtain ⟨lanes', known', secrets'⟩ := introduced'.conversation
  obtain ⟨secret', derived', lane'⟩ := secrets' p.transport there
  obtain rfl : secret = secret' := Except.ok.inj (derived.symm.trans derived')
  have reached : recipient.mailbox.lane? p.inbound = some (p.role.peer, { secret }) :=
    (Mailbox.lane?_eq_some_iff ..).mpr ⟨_, known', lane', rfl⟩
  refine ⟨secret, derived, ⟨lanes, known, lane⟩, ⟨lanes', known', lane'⟩, ?_, ?_⟩
  · exact Mailbox.expects_of_expectIncoming filled reached
  · rw [Role.peer_peer]
    exact apart secret derived

/-- Two parties that know nobody else meet once each was told of the other. -/
theorem meet_of_added
    (added : ({} : Mailbox).addContact p.recipient p.root p.role [p.transport] =
      (.ok (), sender.mailbox))
    (added' : ({} : Mailbox).addContact p.sender p.root p.role.peer [p.transport] =
      (.ok (), recipient.mailbox))
    (filled : recipient.mailbox.expectIncoming (.ofWindow size) = (.ok (), recipient.roster))
    (only : recipient.roster.entries.entries.map (·.1) = [p.inbound]) (first : p.rotations = 0) :
    p.Meet size sender recipient := by
  have here : p.transport ∈ [p.transport] := List.mem_singleton_self _
  refine ⟨⟨_, here, first ▸ .added added⟩, ⟨_, here, first ▸ .added added'⟩, filled, ?_⟩
  intro secret derived stream tag other its made found different
  have member := List.mem_map_of_mem (f := (·.1)) ((Table.find?_eq_some_iff ..).mp found)
  rw [only] at member
  exact absurd (List.mem_singleton.mp member) different

end Pairing

namespace Channel

variable {p : Pairing} {secret : Secret} {size next : Nat} {read : List Nat} {window : Window}
  {x y : Channel}

/-- The sender is at stream `next`, the connections numbered `read` were read, and the window of the
    recipient has accepted those of them that were near enough. -/
structure Ranks (p : Pairing) (secret : Secret) (size : Nat) (x : Channel) (next : Nat)
    (read : List Nat) (window : Window) : Prop where
  lane : x.sender.mailbox.lane? p.outbound = some (p.role, { secret, next })
  owed : ∀ c, x.sender.mailbox.conversation? p.recipient = some c → c.acksOwed.Nodup
  known : ∃ b, x.recipient.mailbox.conversation? p.sender = some b
  listens : x.recipient.roster.Listens p.inbound secret p.role.peer window
  holds : window.Holds size fun n => n ∈ read ∧ Window.Near size (· ∈ x.carried) n
  carried : x.carried = read ++ x.flight.map (·.stream)
  ascending : x.carried.Pairwise (· < ·)
  below : ∀ n ∈ x.carried, n < next
  flies : ∀ s ∈ x.flight, ∃ records, records.length = s.records ∧
    Session.Carries secret s.stream p.role records s.bytes

theorem Ranks.begins (begins : x.Begins p size) :
    ∃ secret, x.Ranks p secret (max size 1) 0 [] (.fresh (max size 1) 0) := by
  obtain ⟨meet, flight, carried⟩ := begins
  obtain ⟨secret, -, ⟨lanes, known, lane⟩, ⟨lanes', known', -⟩, listens⟩ := meet.starts
  refine ⟨secret, ?_⟩
  constructor
  case lane => exact (Mailbox.lane?_eq_some_iff ..).mpr ⟨_, known, lane, rfl⟩
  case owed =>
    intro c found
    obtain rfl := Option.some.inj (known.symm.trans found)
    exact List.nodup_nil
  case known => exact ⟨_, known'⟩
  case listens => exact listens
  case holds =>
    have positive : 0 < max size 1 := by omega
    exact (Window.fresh_holds positive 0).congr (by simp)
  case carried => simp [carried, flight]
  case ascending =>
    rw [carried]
    exact .nil
  case below =>
    rw [carried]
    simp
  case flies =>
    rw [flight]
    simp

/-- Nothing but the mailbox of the sender changes, and there only what is beside the lane. -/
theorem Ranks.besides (ranks : x.Ranks p secret size next read window)
    {operation : Mailbox.Operation}
    (keeps : (operation.apply x.sender.mailbox).lane? p.outbound =
      x.sender.mailbox.lane? p.outbound) :
    Ranks p secret size
      { x with sender := { x.sender with mailbox := operation.apply x.sender.mailbox } }
      next read window :=
  { ranks with
    lane := keeps.trans ranks.lane
    owed := (operation.apply_becomes x.sender.mailbox p.recipient).nodup_acksOwed ranks.owed }

/-- Whatever becomes of a connection, it leaves the lane behind the stream that it was handed, or
    where it was. -/
theorem Ranks.lane_of_send (ranks : x.Ranks p secret size next read window) :
    (∃ context mailbox, x.sender.mailbox.context p.outbound = (.ok (some context), mailbox) ∧
      context.stream = next ∧ ∀ {δ : Type} (writer : WritingEnd δ) (device : δ),
        (x.sender.send p.outbound writer device).2.2.mailbox.lane? p.outbound =
          some (p.role, { secret, next := next + 1 })) ∨
    (∃ fault, x.sender.mailbox.context p.outbound = (.error fault, x.sender.mailbox)) ∧
      ∀ {δ : Type} (writer : WritingEnd δ) (device : δ),
        (x.sender.send p.outbound writer device).2.2.mailbox.lane? p.outbound =
          some (p.role, { secret, next }) := by
  have leaves : ∀ {δ : Type} (writer : WritingEnd δ) (device : δ),
      (x.sender.send p.outbound writer device).2.2.mailbox.lane? p.outbound =
        (x.sender.mailbox.context p.outbound).2.lane? p.outbound :=
    fun writer device => Party.lane?_of_send ranks.owed writer device
  rcases Mailbox.context_of_lane? ranks.lane with ⟨-, refused⟩ | ⟨-, mailbox, handed, lane⟩
  · refine .inr ⟨⟨_, refused⟩, fun writer device => ?_⟩
    rw [leaves, refused]
    exact ranks.lane
  · refine .inl ⟨_, mailbox, handed, rfl, fun writer device => ?_⟩
    rw [leaves, handed]
    exact lane

/-- Without records, all that can change is that the next stream is lost. -/
theorem Ranks.sendNothing {δ : Type} {writer : WritingEnd δ} {device device' : δ} {sender : Party}
    {result : Except SessionFault Session.SendOutcome}
    (ranks : x.Ranks p secret size next read window)
    (sent : x.sender.send p.outbound writer device = (result, device', sender))
    (nothing : ∀ bytes records, result = .ok (.completed bytes records) → records = 0) :
    (∃ context mailbox, x.sender.mailbox.context p.outbound = (.ok (some context), mailbox) ∧
      context.stream = next ∧ Ranks p secret size { x with sender } (next + 1) read window) ∨
    (∃ fault, x.sender.mailbox.context p.outbound = (.error fault, x.sender.mailbox)) ∧
      Ranks p secret size { x with sender } next read window := by
  obtain ⟨unsent, -⟩ := Party.unsent_of_send ranks.owed nothing sent
  have owed : ∀ c, sender.mailbox.conversation? p.recipient = some c → c.acksOwed.Nodup :=
    unsent.nodup_acksOwed ranks.owed
  have after : (x.sender.send p.outbound writer device).2.2 = sender := by rw [sent]
  rcases ranks.lane_of_send with ⟨context, mailbox, handed, number, lane⟩ | ⟨refused, lane⟩
  · have lane := lane writer device
    rw [after] at lane
    have below : ∀ n ∈ x.carried, n < next + 1 :=
      fun n member => Nat.lt_succ_of_lt (ranks.below n member)
    exact .inl ⟨context, mailbox, handed, number, { ranks with lane, owed, below }⟩
  · have lane := lane writer device
    rw [after] at lane
    exact .inr ⟨refused, { ranks with lane, owed }⟩

theorem Ranks.send {δ : Type} {writer : WritingEnd δ} {held : δ → Bytes} {device device' : δ}
    {sender : Party} {stream bytes records : Nat} (ranks : x.Ranks p secret size next read window)
    (faithful : writer.Faithful held) (empty : held device = [])
    (number : x.sender.mailbox.nextStream p.outbound = .ok stream)
    (sent : x.sender.send p.outbound writer device =
      (.ok (.completed bytes records), device', sender))
    (some : 0 < records) :
    Ranks p secret size { x with
      sender
      flight := x.flight ++ [{ stream, bytes := held device', records }]
      carried := x.carried ++ [stream] } (next + 1) read window := by
  rw [Mailbox.nextStream_of_lane? ranks.lane, Except.ok.injEq] at number
  subst number
  obtain ⟨c, found, here, role⟩ := (Mailbox.lane?_eq_some_iff ..).mp ranks.lane
  obtain ⟨taken, c', count, -, known, hands, carries⟩ :=
    Party.hands_of_send faithful empty found here (ranks.owed c found) sent some
  rw [role] at carries
  constructor
  case lane =>
    refine (Mailbox.lane?_eq_some_iff ..).mpr ⟨c', known, ?_, hands.role.trans role⟩
    rw [hands.lanes]
    exact Table.find?_insert_self ..
  case owed =>
    intro other held
    obtain rfl := Option.some.inj (known.symm.trans held)
    exact hands.distinct
  case known => exact ranks.known
  case listens => exact ranks.listens
  case holds =>
    refine ranks.holds.congr fun n => and_congr_right fun member => (Window.near_append ?_).symm
    have carried : n ∈ x.carried := by
      rw [ranks.carried]
      exact List.mem_append_left _ member
    exact Nat.le_of_lt (ranks.below n carried)
  case carried =>
    rw [ranks.carried]
    simp
  case ascending =>
    refine List.pairwise_append.mpr ⟨ranks.ascending, List.pairwise_singleton _ _, ?_⟩
    intro n member other last
    rw [List.mem_singleton.mp last]
    exact ranks.below n member
  case below =>
    intro n member
    rcases List.mem_append.mp member with before | last
    · exact Nat.lt_succ_of_lt (ranks.below n before)
    · rw [List.mem_singleton.mp last]
      exact Nat.lt_succ_self next
  case flies =>
    intro s member
    rcases List.mem_append.mp member with before | last
    · exact ranks.flies s before
    · obtain rfl := List.mem_singleton.mp last
      exact ⟨taken, count, carries⟩

/-- The oldest connection on its way is received whole if its number is near enough to all that were
    not carried, and otherwise it is not recognised. -/
theorem Ranks.receive {ρ : Type} {reader : ReadingEnd ρ} {left : ρ → Bytes} {device : ρ}
    {s : Parcel} {flight : List Parcel} (ranks : x.Ranks p secret size next read window)
    (faithful : reader.Faithful left) (first : x.flight = s :: flight)
    (bytes : left device = s.bytes) :
    ∃ device' recipient window',
      (Window.Near size (· ∈ x.carried) s.stream ∧ x.recipient.receive reader device =
          (.ok (.completed p.sender s.records), device', recipient) ∨
        ¬ Window.Near size (· ∈ x.carried) s.stream ∧
          x.recipient.receive reader device = (.ok .unrecognised, device', recipient)) ∧
      Ranks p secret size { x with recipient, flight } next (read ++ [s.stream]) window' := by
  obtain ⟨b, known⟩ := ranks.known
  obtain ⟨records, count, carries⟩ := ranks.flies s (by simp [first])
  have flies : ∀ s ∈ flight, ∃ records, records.length = s.records ∧
      Session.Carries secret s.stream p.role records s.bytes := by
    intro later member
    exact ranks.flies later (by simp [first, member])
  rw [← bytes, ← Role.peer_peer p.role] at carries
  have carried : x.carried = read ++ s.stream :: flight.map (·.stream) := by
    rw [ranks.carried, first, List.map_cons]
  have carried' : x.carried = read ++ [s.stream] ++ flight.map (·.stream) := by
    rw [carried, List.append_assoc]
    rfl
  have holds := ranks.holds
  rw [carried] at holds
  have answer := holds.readNext (carried ▸ ranks.ascending)
  rw [← carried] at answer
  rcases answer with ⟨window', near, accepted, after⟩ | ⟨lags, refused, after⟩
  · obtain ⟨device', recipient, received, mailbox, listens, -⟩ :=
      Party.receive_of_accepted faithful ranks.listens known carries accepted
    rw [count] at received
    refine ⟨device', recipient, window', .inl ⟨near, received⟩, ?_⟩
    have known' : ∃ b, recipient.mailbox.conversation? p.sender = some b := by
      rw [mailbox]
      exact ⟨_, Mailbox.conversation?_setConversation_self ..⟩
    exact { ranks with known := known', listens, flies, carried := carried', holds := after }
  · obtain ⟨device', received⟩ := Party.receive_of_refused faithful ranks.listens carries refused
    exact ⟨device', x.recipient, window, .inr ⟨lags, received⟩,
      { ranks with flies, carried := carried', holds := after }⟩

/-! ## Numbers that were lost -/

theorem Loses.trans {begun : Channel} {stream : Nat} (first : Run p begun x)
    (loses : Loses p x y stream) {z : Channel} (last : Run p y z) : Loses p begun z stream := by
  obtain ⟨before, handed, number, sent, nothing, after⟩ := loses
  exact .between (first.trans before) handed number sent nothing (after.trans last)

/-- What becomes of stream numbers on the way from `x` to `y`, if `next` is the next one at first and
    `next'` in the end: those below stay as they are, and those in between are carried or lost. -/
structure Spends (p : Pairing) (x y : Channel) (next next' : Nat) : Prop where
  further : next ≤ next'
  grows : ∀ n ∈ x.carried, n ∈ y.carried
  settled : ∀ n ∈ y.carried, n < next → n ∈ x.carried
  spent : ∀ n < next', next ≤ n → n ∈ y.carried ∨ Loses p x y n

theorem Spends.of_same (same : y.carried = x.carried) : Spends p x y next next where
  further := Nat.le_refl next
  grows := fun _ member => same ▸ member
  settled := fun _ member _ => same ▸ member
  spent := fun _ below above => absurd below (Nat.not_lt.mpr above)

theorem Spends.of_carried (carried : y.carried = x.carried ++ [next]) :
    Spends p x y next (next + 1) where
  further := Nat.le_succ next
  grows := by
    intro n member
    rw [carried]
    exact List.mem_append_left _ member
  settled := by
    intro n member below
    rw [carried] at member
    rcases List.mem_append.mp member with before | last
    · exact before
    · exact absurd (List.mem_singleton.mp last) (Nat.ne_of_lt below)
  spent := by
    intro n below above
    obtain rfl := Nat.le_antisymm above (Nat.le_of_lt_succ below)
    rw [carried]
    exact .inl (List.mem_append_right _ (List.mem_singleton_self next))

theorem Spends.of_lost (same : y.carried = x.carried) (lost : Loses p x y next) :
    Spends p x y next (next + 1) where
  further := Nat.le_succ next
  grows := fun _ member => same ▸ member
  settled := fun _ member _ => same ▸ member
  spent := by
    intro n below above
    obtain rfl := Nat.le_antisymm above (Nat.le_of_lt_succ below)
    exact .inr lost

theorem Spends.trans {z : Channel} {between next' : Nat} (first : Spends p x y next between)
    (run : Run p x y) (second : Spends p y z between next') (run' : Run p y z) :
    Spends p x z next next' where
  further := Nat.le_trans first.further second.further
  grows := fun n member => second.grows n (first.grows n member)
  settled := by
    intro n member below
    exact first.settled n (second.settled n member (Nat.lt_of_lt_of_le below first.further)) below
  spent := by
    intro n below above
    by_cases early : n < between
    · exact (first.spent n early above).imp (second.grows n) (·.trans .refl run')
    · exact (second.spent n below (Nat.le_of_not_lt early)).imp_right (·.trans run .refl)

theorem Ranks.step (ranks : x.Ranks p secret size next read window) (step : Step p x y) :
    ∃ next' read' window', y.Ranks p secret size next' read' window' ∧
      Spends p x y next next' := by
  cases step with
  | besides operation keeps => exact ⟨next, read, window, ranks.besides keeps, .of_same rfl⟩
  | sendNothing sent nothing =>
      rcases ranks.sendNothing sent nothing with ⟨_, _, handed, number, after⟩ | ⟨-, after⟩
      · have lost := Loses.between .refl handed number sent nothing .refl
        exact ⟨next + 1, read, window, after, .of_lost rfl lost⟩
      · exact ⟨next, read, window, after, .of_same rfl⟩
  | send faithful empty number sent some =>
      have after := ranks.send faithful empty number sent some
      obtain rfl := Except.ok.inj ((Mailbox.nextStream_of_lane? ranks.lane).symm.trans number)
      exact ⟨next + 1, read, window, after, .of_carried rfl⟩
  | @receive ρ reader left device _ s flight faithful first bytes =>
      obtain ⟨device', recipient, window', answer, after⟩ := ranks.receive faithful first bytes
      refine ⟨next, read ++ [s.stream], window', ?_, .of_same rfl⟩
      rcases answer with ⟨-, received⟩ | ⟨-, received⟩
      · rw [received]
        exact after
      · rw [received]
        exact after

theorem Ranks.run (ranks : x.Ranks p secret size next read window) (run : Run p x y) :
    ∃ next' read' window', y.Ranks p secret size next' read' window' ∧
      Spends p x y next next' := by
  induction run with
  | refl => exact ⟨next, read, window, ranks, .of_same rfl⟩
  | tail before step ih =>
      obtain ⟨_, _, _, here, spends⟩ := ih
      obtain ⟨next', read', window', there, more⟩ := here.step step
      exact ⟨next', read', window', there, spends.trans before more (.single step)⟩

/-- A stream that was lost is below the next one, and was not carried. -/
theorem Ranks.of_loses {begun : Channel} {first : Nat} {read₀ : List Nat} {window₀ : Window}
    (begins : begun.Ranks p secret size first read₀ window₀)
    (ranks : x.Ranks p secret size next read window) {stream : Nat}
    (loses : Loses p begun x stream) : stream < next ∧ stream ∉ x.carried := by
  obtain ⟨before, handed, number, sent, nothing, after⟩ := loses
  obtain ⟨used, _, _, there, -⟩ := begins.run before
  rcases there.sendNothing sent nothing with ⟨_, _, its, here, past⟩ | ⟨⟨fault, refused⟩, -⟩
  · obtain rfl : used = stream := by
      obtain rfl := Option.some.inj (Except.ok.inj (Prod.mk.inj (its.symm.trans handed)).1)
      exact here.symm.trans number
    obtain ⟨next', _, _, now, spends⟩ := past.run after
    obtain rfl : next' = next := by
      have same := now.lane.symm.trans ranks.lane
      simpa using same
    refine ⟨spends.further, fun member => ?_⟩
    exact Nat.lt_irrefl _ (there.below _ (spends.settled _ member (Nat.lt_succ_self _)))
  · cases refused.symm.trans handed

theorem Ranks.counts {begun : Channel} {read₀ : List Nat} {window₀ : Window}
    (begins : begun.Ranks p secret size 0 read₀ window₀)
    (ranks : x.Ranks p secret size next read window) (spends : Spends p begun x 0 next) :
    Counts p begun x next where
  upTo := Mailbox.nextStream_of_lane? ranks.lane
  uses := by
    intro context mailbox handed
    rcases ranks.lane_of_send with ⟨_, _, its, number, lane⟩ | ⟨⟨fault, refused⟩, -⟩
    · obtain rfl := Option.some.inj (Except.ok.inj (Prod.mk.inj (its.symm.trans handed)).1)
      exact ⟨number, fun writer device => Mailbox.nextStream_of_lane? (lane writer device)⟩
    · cases refused.symm.trans handed
  keeps := by
    intro none δ writer device
    rcases ranks.lane_of_send with ⟨_, _, handed, -⟩ | ⟨-, lane⟩
    · exact absurd handed (none _ _)
    · exact Mailbox.nextStream_of_lane? (lane writer device)
  used_iff := by
    intro stream
    constructor
    · intro below
      exact spends.spent stream below (Nat.zero_le stream)
    · rintro (carried | lost)
      · exact ranks.below stream carried
      · exact (begins.of_loses ranks lost).1
  apart := fun stream carried lost => (begins.of_loses ranks lost).2 carried

/-- Of the streams before one that was carried, those that were not carried were lost. -/
theorem Counts.near_iff {begun : Channel} (counts : Counts p begun x next) (some : 0 < size)
    {stream : Nat} (carried : stream ∈ x.carried) :
    Window.Near size (· ∈ x.carried) stream ↔
      ∀ lost, Loses p begun x lost → stream < lost + size := by
  constructor
  · intro near lost loses
    by_cases before : lost < stream
    · exact near lost before fun carried => counts.apart lost carried loses
    · omega
  · intro near earlier before open_
    have below := (counts.used_iff stream).mpr (.inl carried)
    rcases (counts.used_iff earlier).mp (Nat.lt_trans before below) with carried | lost
    · exact absurd carried open_
    · exact near earlier lost

/-- Whatever the sender did before, and however its connections without records ended: whoever is
    handed keys uses up their stream, so that the streams so far are those that were carried and
    those that were lost. The next connection with records is received whole if no lower stream
    number that such a connection did not carry lags behind by the size of the window, and otherwise
    it is not recognised; so the first stream that was lost decides. -/
theorem received_or_unrecognised {begun : Channel} (begins : begun.Begins p size)
    (run : Run p begun x) :
    (∃ next, Counts p begun x next) ∧
      ∀ {s : Parcel} {flight : List Parcel}, x.flight = s :: flight →
        (Window.Near (max size 1) (· ∈ x.carried) s.stream ↔
          ∀ lost, Loses p begun x lost → s.stream < lost + max size 1) ∧
        ∀ {ρ : Type} {reader : ReadingEnd ρ} {left : ρ → Bytes} {device : ρ},
          reader.Faithful left → left device = s.bytes →
          ∃ device' recipient,
            (Window.Near (max size 1) (· ∈ x.carried) s.stream ∧
              x.recipient.receive reader device =
                (.ok (.completed p.sender s.records), device', recipient)) ∨
            (¬ Window.Near (max size 1) (· ∈ x.carried) s.stream ∧
              x.recipient.receive reader device = (.ok .unrecognised, device', recipient)) := by
  obtain ⟨secret, ranks₀⟩ := Ranks.begins begins
  obtain ⟨next, read, window, ranks, spends⟩ := ranks₀.run run
  have counts := ranks₀.counts ranks spends
  refine ⟨⟨next, counts⟩, fun {s flight} first => ⟨counts.near_iff (by omega) ?_, ?_⟩⟩
  · rw [ranks.carried, first]
    simp
  · intro ρ reader left device faithful bytes
    obtain ⟨device', recipient, -, answer, -⟩ := ranks.receive faithful first bytes
    exact ⟨device', recipient, answer⟩

theorem not_completed_of_narrow {δ : Type} {writer : WritingEnd δ} {route : Route} {party : Party}
    {device : δ} (narrow : writer.capacity < Frame.minConnectionLength) (bytes records : Nat) :
    (party.send route writer device).1 ≠ .ok (.completed bytes records) := by
  simp only [Party.send, Party.sending, Session.Sending.send, Session.Sending.run, narrow, if_true]
  split <;> simp

/-- Connections without room use up stream numbers. -/
private theorem run_abandoned (p : Pairing) (count : Nat) (x : Channel) :
    Run p x { x with
      sender := (fun q : Party => (q.send p.outbound (Memory.writingEnd {} 0) {}).2.2)^[count]
        x.sender } := by
  induction count with
  | zero => exact .refl
  | succ count ih =>
      rw [Function.iterate_succ_apply']
      refine ih.tail (.sendNothing rfl fun bytes records completed => ?_)
      exact absurd completed (not_completed_of_narrow (by decide) bytes records)

private theorem run_behind_abandoned {p : Pairing} (begun : Channel) (bytes : Nat)
    {count stream : Nat} {sender : Party} {operation : Mailbox.Operation}
    (abandoned : (fun q : Party => (q.send p.outbound (Memory.writingEnd {} 0) {}).2.2)^[count]
      begun.sender = sender)
    (keeps : (operation.apply sender.mailbox).lane? p.outbound = sender.mailbox.lane? p.outbound)
    (next : (operation.apply sender.mailbox).nextStream p.outbound = .ok stream)
    (answer : (Party.send { sender with mailbox := operation.apply sender.mailbox } p.outbound
      (Memory.writingEnd {} 1000) {}).1.toOption = some (.completed bytes 1)) :
    ∃ x s, Run p begun x ∧ x.flight = begun.flight ++ [s] ∧ s.stream = stream ∧
      x.carried = begun.carried ++ [stream] := by
  have lost := run_abandoned p count begun
  rw [abandoned] at lost
  have ready := lost.tail (.besides operation keeps)
  have faithful := Memory.writingEnd_faithful {} 1000 Frame.maxLength
  have empty : ({} : Memory.Outbound).bytes = [] := rfl
  exact ⟨_, _, ready.tail (.send faithful empty next (eq_of_toOption answer) Nat.one_pos),
    rfl, rfl, rfl⟩

set_option maxRecDepth 100000 in
/-- As many connections are abandoned as a window holds, and then one carries a message. -/
private theorem exists_run_behind_window :
    let p : Pairing :=
      { root := .repeated 5, role := .alice, transport := ⟨0⟩, rotations := 0, recipient := ⟨2⟩,
        sender := ⟨1⟩ }
    ∃ begun x s, begun.Begins p Window.defaultSize ∧ Run p begun x ∧ x.flight = [s] ∧
      s.stream = Window.defaultSize ∧ x.carried = [Window.defaultSize] := by
  intro p
  let added := ({} : Mailbox).addContact ⟨2⟩ (.repeated 5) .alice [⟨0⟩]
  let added' := ({} : Mailbox).addContact ⟨1⟩ (.repeated 5) .bob [⟨0⟩]
  let expected := added'.2.expectIncoming (.ofWindow Window.defaultSize)
  let begun : Channel :=
    { sender := { mailbox := added.2 }
      recipient := { mailbox := added'.2, roster := expected.2 } }
  have done : added = (.ok (), added.2) := eq_of_toOption (by decide +kernel)
  have done' : added' = (.ok (), added'.2) := eq_of_toOption (by decide +kernel)
  have filled : expected = (.ok (), expected.2) := eq_of_toOption (by decide +kernel)
  have only : expected.2.entries.entries.map (·.1) = [p.inbound] := by decide +kernel
  have begins : begun.Begins p Window.defaultSize :=
    ⟨Pairing.meet_of_added done done' filled only rfl, rfl, rfl⟩
  have used : (((Mailbox.Operation.queue ⟨2⟩ [109]).apply
      ((fun q : Party => (q.send p.outbound (Memory.writingEnd {} 0) {}).2.2)^[Window.defaultSize]
        begun.sender).mailbox).lane? p.outbound).map (·.2.next) = some Window.defaultSize := by
    decide +kernel
  obtain ⟨⟨role, lane⟩, known, next⟩ := Option.map_eq_some_iff.mp used
  obtain ⟨x, s, run, flight, stream, carried⟩ :=
    run_behind_abandoned (p := p) begun 108 rfl (by decide +kernel)
      (Mailbox.nextStream_of_lane? known) (by decide +kernel)
  have number : lane.next = Window.defaultSize := next
  rw [number] at stream carried
  exact ⟨begun, x, s, begins, run, flight, stream, carried⟩

private theorem not_near_of_behind_window {x : Channel} {s : Parcel}
    (stream : s.stream = Window.defaultSize) (carried : x.carried = [Window.defaultSize]) :
    ¬ Window.Near (max Window.defaultSize 1) (· ∈ x.carried) s.stream := by
  rw [stream, carried]
  intro near
  have close := near 0 (by decide) (by decide)
  exact absurd close (by decide)

/-- One connection is lost to the recipient after a whole window of abandoned ones. -/
theorem unrecognised_behind_window :
    ∃ p begun x s device' recipient, begun.Begins p Window.defaultSize ∧ Run p begun x ∧
      (∃ next, Counts p begun x next) ∧ x.flight = [s] ∧
      (∃ lost, Loses p begun x lost ∧ lost + Window.defaultSize ≤ s.stream) ∧
      (Memory.readingEnd {}).Faithful Memory.Inbound.rest ∧
      x.recipient.receive (Memory.readingEnd {}) { rest := s.bytes } =
        (.ok .unrecognised, device', recipient) := by
  obtain ⟨begun, x, s, begins, run, flight, stream, carried⟩ := exists_run_behind_window
  have faithful := Memory.readingEnd_faithful Memory.ReadLimits.harmless_default
  have bytes : Memory.Inbound.rest { rest := s.bytes } = s.bytes := rfl
  have lags := not_near_of_behind_window stream carried
  obtain ⟨counts, receives⟩ := received_or_unrecognised begins run
  obtain ⟨near_iff, receives⟩ := receives flight
  have far := mt near_iff.mpr lags
  simp only [not_forall, Nat.not_lt] at far
  obtain ⟨lost, loses, behind⟩ := far
  obtain ⟨device', recipient, ⟨near, -⟩ | ⟨-, received⟩⟩ := receives faithful bytes
  · exact absurd near lags
  · exact ⟨_, begun, x, s, device', recipient, begins, run, counts, flight, ⟨lost, loses, behind⟩,
      faithful, received⟩

/-- Not every connection that carries records is recognised, even if it is read in order. -/
theorem not_forall_received :
    ¬ ∀ p begun x s flight, begun.Begins p Window.defaultSize → Run p begun x →
      x.flight = s :: flight → ∃ device' recipient,
        x.recipient.receive (Memory.readingEnd {}) { rest := s.bytes } =
          (.ok (.completed p.sender s.records), device', recipient) := by
  intro received
  obtain ⟨begun, x, s, begins, run, flight, stream, carried⟩ := exists_run_behind_window
  obtain ⟨device', recipient, completed⟩ := received _ begun x s [] begins run flight
  obtain ⟨secret, ranks₀⟩ := Ranks.begins begins
  obtain ⟨next, read, window, ranks, -⟩ := ranks₀.run run
  have faithful := Memory.readingEnd_faithful Memory.ReadLimits.harmless_default
  have bytes : Memory.Inbound.rest { rest := s.bytes } = s.bytes := rfl
  obtain ⟨other, after, -, ⟨near, -⟩ | ⟨-, unrecognised⟩, -⟩ := ranks.receive faithful flight bytes
  · exact not_near_of_behind_window stream carried near
  · rw [completed] at unrecognised
    cases unrecognised

end Channel

end Courier
