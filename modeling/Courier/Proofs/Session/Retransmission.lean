import Courier.Proofs.Session.Acknowledgement

/-! # Sending again

A sender puts the batches that no acknowledgement has cleared back in its queue
and sends their messages again, whether the batches have arrived or not. The
recipient knows what it has seen by the names of batches. So a batch that is sent
again as it was is taken once, and messages that are packed with others, or into
other batches, are taken a second time. No message is received too often
otherwise: what the recipient has beyond what was queued is the messages of
batches that have arrived and were put back, less those that still wait or are
in batches that have not arrived.
-/

namespace Courier

/-- Two parties, and the account of what the sender queued for the recipient and put back. -/
structure Resending extends Exchange where
  /-- Messages that the sender has queued. -/
  queued : Multiset Bytes := 0
  /-- Batches that the sender has put back in its queue. -/
  putBack : Multiset Batch := 0

namespace Resending

variable (a : Acquaintance)

/-- Nothing was queued or written yet. -/
def Begins (x : Resending) : Prop :=
  ∃ begun : Exchange, begun.Begins a ∧ x = { toExchange := begun }

inductive Step : Resending → Resending → Prop where
  | queue {x : Resending} {message : Bytes} {m : Mailbox}
      (queued : x.sender.party.mailbox.queue a.recipient message = (.ok (), m)) :
      Step x { x with
        sender := { x.sender with party := { x.sender.party with mailbox := m } }
        queued := x.queued + {message} }
  | requeue {x : Resending} {count : Nat} {m : Mailbox}
      (requeued : x.sender.party.mailbox.requeue a.recipient = (.ok count, m)) :
      Step x { x with
        sender := { x.sender with party := { x.sender.party with mailbox := m } }
        putBack := x.putBack + x.sender.party.mailbox.outstandingBatches a.recipient }
  /-- Anything but queueing a message, so that no more of them wait. -/
  | sender {x : Resending} {own : Correspondent}
      (step : Correspondent.Step a x.recipient.written x.sender own)
      (besides : own.party.mailbox.queuedCount a.recipient ≤
        x.sender.party.mailbox.queuedCount a.recipient) :
      Step x { x with sender := own }
  | recipient {x : Resending} {own : Correspondent}
      (step : Correspondent.Step a.flip x.sender.written x.recipient own) :
      Step x { x with recipient := own }

/-- Any number of steps. -/
abbrev Run : Resending → Resending → Prop :=
  Relation.ReflTransGen (Step a)

/-- The messages that wait in the queue of the sender. -/
def waiting (x : Resending) : Multiset Bytes :=
  (x.sender.party.mailbox.conversation? a.recipient).elim 0 (·.queued)

/-- The batches of the sender that were not put back: those that are outstanding, and those that
    acknowledgements have cleared. -/
def kept (x : Resending) : Multiset Batch :=
  x.sender.party.mailbox.outstandingBatches a.recipient + x.sender.cleared

end Resending

/-! ## What one party does with copies -/

theorem Conversation.Hands.copies {start c : Conversation} {records : List Record}
    (hands : start.Hands records c) : c.copies = start.copies := by
  have carried : (records.filterMap Record.batch?).flatMap (·.2.messages) =
      records.flatMap Record.messages := by
    rw [← Record.messages_batches, Record.batches, List.flatMap_map]
  rw [Conversation.copies, Conversation.copies, outstandingMessages, outstandingMessages,
    hands.outstanding, hands.queued, List.flatMap_append, carried, ← Multiset.coe_add,
    ← Multiset.coe_add]
  abel

namespace Correspondent

variable {a : Acquaintance} {own own' : Correspondent} {c c' : Conversation}
  {next : TransportIndex → Nat} {windows : TransportIndex → Window} {arrived there : List Batch}
  {incoming : List Bytes} {theirs : Multiset Batch}

/-- The party, with batches that it waits for no longer. -/
def writeOff (own : Correspondent) (batches : Multiset Batch) : Correspondent :=
  { own with cleared := own.cleared + batches }

theorem Step.writeOff (step : Step a incoming own own') (batches : Multiset Batch) :
    Step a incoming (own.writeOff batches) (own'.writeOff batches) := by
  cases step with
  | prepare operation queues => exact .prepare operation queues
  | sendNothing sent nothing => exact .sendNothing sent nothing
  | send faithful empty common sent some => exact .send faithful empty common sent some
  | receive faithful some received =>
      have step : Step a incoming (own.writeOff batches) _ := .receive faithful some received
      rw [Correspondent.writeOff, add_right_comm] at step
      exact step

theorem Stands.queue {message : Bytes} {m : Mailbox}
    (stands : own.Stands a c next windows arrived)
    (queued : own.party.mailbox.queue a.recipient message = (.ok (), m)) :
    Stands a { own with party := { own.party with mailbox := m } }
      { c with queued := c.queued ++ [message] } next windows arrived := by
  rw [Mailbox.queue, Mailbox.update_of_conversation? stands.known] at queued
  obtain ⟨-, rfl⟩ := Prod.mk.inj queued
  have known := Mailbox.conversation?_setConversation_self own.party.mailbox a.recipient
    { c with queued := c.queued ++ [message] }
  exact { stands with known, accounts := { stands.accounts with } }

theorem Stands.requeue {m : Mailbox} {count : Nat} (stands : own.Stands a c next windows arrived)
    (requeued : own.party.mailbox.requeue a.recipient = (.ok count, m)) :
    Stands a
      ({ own with party := { own.party with mailbox := m } }.writeOff
        (own.party.mailbox.outstandingBatches a.recipient)) c.requeue next windows arrived := by
  rw [Mailbox.requeue, Mailbox.update_of_conversation? stands.known] at requeued
  obtain ⟨-, rfl⟩ := Prod.mk.inj requeued
  constructor
  case known => exact Mailbox.conversation?_setConversation_self ..
  case side => exact stands.side
  case lanes => exact stands.lanes
  case listens => exact stands.listens
  case accounts =>
    refine { stands.accounts with names := fun entry member => ?_ }
    cases member
  case formed =>
    rw [Mailbox.outstandingBatches_of_conversation? stands.known]
    refine Eq.trans ?_ stands.formed
    exact (zero_add _).trans (add_comm _ _)
  case written => exact stands.written

/-- A connection that is read changes the conversation by its records, if at all. -/
theorem Stands.receiveAll_of_receive {ρ : Type} {reader : ReadingEnd ρ} {left : ρ → Bytes}
    {device device' : ρ} {party : Party} {result : Except SessionFault Session.ReceiveOutcome}
    (stands : own.Stands a c next windows arrived) (faithful : reader.Faithful left)
    (tells : Tells a.flip theirs there (left device))
    (received : own.party.receive reader device = (result, device', party)) :
    ∃ records, party.mailbox.conversation? a.recipient = some (c.receiveAll records) := by
  obtain ⟨transport, secret, stream, records, shared, carries, -, -⟩ := tells
  replace shared : a.Shares transport secret := shared
  cases answer : (windows transport).accept? stream with
  | none =>
      obtain ⟨after, unrecognised⟩ :=
        Party.receive_of_refused faithful (stands.listens shared) carries answer
      rw [unrecognised] at received
      obtain ⟨-, -, rfl⟩ := received
      exact ⟨[], stands.known⟩
  | some window =>
      obtain ⟨after, party', completed, mailbox, -, -⟩ :=
        Party.receive_of_accepted faithful (stands.listens shared) stands.known carries answer
      rw [completed] at received
      obtain ⟨-, -, rfl⟩ := received
      refine ⟨records, ?_⟩
      rw [mailbox]
      exact Mailbox.conversation?_setConversation_self ..

/-- A copy waits, is outstanding or was in a batch that is cleared, and stays so unless one more
    message is queued. -/
theorem Stands.copies_step (stands : own.Stands a c next windows arrived)
    (tells : ∀ bytes ∈ incoming, Tells a.flip theirs there bytes)
    (step : Step a incoming own own')
    (besides : own'.party.mailbox.queuedCount a.recipient ≤
      own.party.mailbox.queuedCount a.recipient)
    (known : own'.party.mailbox.conversation? a.recipient = some c') :
    c'.copies + Batch.messagesOf own'.cleared = c.copies + Batch.messagesOf own.cleared := by
  cases step with
  | prepare operation queues =>
      obtain ⟨messages, after⟩ := Mailbox.queued_of_onlyQueues queues stands.known
      obtain rfl := Option.some.inj (known.symm.trans after)
      rw [Mailbox.queuedCount, Mailbox.queuedCount, known, stands.known] at besides
      have none : messages = [] := by
        refine List.eq_nil_of_length_eq_zero ?_
        simp only [Option.elim_some, List.length_append] at besides
        omega
      rw [none]
      simp [Conversation.copies, Conversation.outstandingMessages]
  | sendNothing sent nothing =>
      obtain ⟨unsent, -⟩ := Party.unsent_of_send stands.owedOnce nothing sent
      obtain ⟨c'', after, left⟩ := unsent.known c stands.known
      obtain rfl := Option.some.inj (known.symm.trans after)
      simp only [Conversation.copies, Conversation.outstandingMessages, left.queued,
        left.outstanding]
  | send faithful empty common sent some =>
      obtain ⟨secret, -, lane⟩ := stands.lanes _ common
      obtain ⟨taken, c'', -, -, after, hands, -⟩ := Party.hands_of_send faithful empty
        stands.known lane stands.accounts.owedOnce sent some
      obtain rfl := Option.some.inj (known.symm.trans after)
      rw [hands.copies]
      rfl
  | receive faithful some received =>
      obtain ⟨records, after⟩ :=
        stands.receiveAll_of_receive faithful (tells _ some) received
      obtain rfl := Option.some.inj (known.symm.trans after)
      have fewer : (c.receiveAll records).outstanding.Sublist c.outstanding := by
        rw [c.outstanding_receiveAll records]
        exact List.filter_sublist
      have kept := Conversation.copies_of_sublist (c.queued_receiveAll records) fewer
      rw [Mailbox.outstandingBatches_of_conversation? after,
        Mailbox.outstandingBatches_of_conversation? stands.known, Batch.messagesOf_add, ← kept]
      abel

end Correspondent

/-! ## What both do -/

namespace Resending

variable {acquaintance : Acquaintance} {x y : Resending} {c : Conversation} {there : List Batch}

/-- What has arrived was formed by the sender, and the copies that wait, are outstanding or were
    cleared are as many as were queued. -/
structure Balanced (acquaintance : Acquaintance) (x : Resending) (c : Conversation)
    (there : List Batch) : Prop where
  sender : ∃ next windows back,
    (x.sender.writeOff x.putBack).Stands acquaintance c next windows back
  recipient : ∃ d next windows, x.recipient.Stands acquaintance.flip d next windows there
  formed : ∀ batch ∈ there, batch ∈ x.sender.formed
  copies : c.copies + Batch.messagesOf x.sender.cleared = x.queued

theorem Balanced.begins (begins : x.Begins acquaintance) :
    ∃ c, x.Balanced acquaintance c [] := by
  obtain ⟨begun, ⟨sends, receives⟩, rfl⟩ := begins
  obtain ⟨c, size, -, sender⟩ := sends.stands
  obtain ⟨d, size', -, recipient⟩ := receives.stands
  obtain ⟨lanes, known, -⟩ := sends.told.conversation
  obtain rfl := Option.some.inj (sender.known.symm.trans known)
  have unwritten : begun.sender.writeOff 0 = begun.sender := by
    rw [Correspondent.writeOff, add_zero]
  refine ⟨_, ⟨_, _, [], unwritten.symm ▸ sender⟩, ⟨d, _, _, recipient⟩, by simp, ?_⟩
  rw [sends.unwritten]
  rfl

theorem Balanced.step (balanced : x.Balanced acquaintance c there) (step : Step acquaintance x y) :
    ∃ c' there', y.Balanced acquaintance c' there' := by
  obtain ⟨⟨next, windows, back, sender⟩, ⟨d, next', windows', recipient⟩, formed, copies⟩ :=
    balanced
  cases step with
  | queue queued =>
      refine ⟨_, there, ⟨_, _, _, sender.queue queued⟩, ⟨_, _, _, recipient⟩, formed, ?_⟩
      rw [Conversation.copies_queue, add_right_comm, copies]
  | requeue requeued =>
      have after := sender.requeue requeued
      rw [Correspondent.writeOff, Correspondent.writeOff, add_assoc] at after
      refine ⟨_, there, ⟨_, _, _, after⟩, ⟨_, _, _, recipient⟩, formed, ?_⟩
      rw [Conversation.copies_requeue, copies]
  | sender step besides =>
      have written := step.writeOff x.putBack
      obtain ⟨c', nextAfter, windowsAfter, more, after, -, grown, -⟩ :=
        sender.step recipient.written written
      have kept := sender.copies_step recipient.written written besides after.known
      simp only [Correspondent.writeOff, Batch.messagesOf_add, ← add_assoc, add_left_inj,
        copies] at kept
      refine ⟨c', there, ⟨_, _, _, after⟩, ⟨_, _, _, recipient⟩, fun batch member => ?_, kept⟩
      exact Multiset.mem_of_le grown (formed batch member)
  | recipient step =>
      have incoming := sender.written
      rw [← acquaintance.flip_flip] at incoming
      obtain ⟨d', nextAfter, windowsAfter, more, after, fromSender, -, -⟩ :=
        recipient.step incoming step
      refine ⟨c, there ++ more, ⟨_, _, _, sender⟩, ⟨_, _, _, after⟩, fun batch member => ?_,
        copies⟩
      rcases List.mem_append.mp member with before | new
      · exact formed batch before
      · exact fromSender batch new

theorem Balanced.run (balanced : x.Balanced acquaintance c there) (run : Run acquaintance x y) :
    ∃ c' there', y.Balanced acquaintance c' there' := by
  induction run with
  | refl => exact ⟨c, there, balanced⟩
  | tail _ step ih =>
      obtain ⟨c', there', here⟩ := ih
      exact here.step step

theorem Balanced.known (balanced : x.Balanced acquaintance c there) :
    x.sender.party.mailbox.conversation? acquaintance.recipient = some c := by
  obtain ⟨next, windows, back, sender⟩ := balanced.sender
  exact sender.known

/-- Batches that have arrived and are not kept any more were put back. -/
theorem Balanced.sub_kept_le (balanced : x.Balanced acquaintance c there) :
    (there : Multiset Batch) - x.kept acquaintance ≤ x.putBack := by
  obtain ⟨d, next, windows, recipient⟩ := balanced.recipient
  obtain ⟨next', windows', back, sender⟩ := balanced.sender
  have once : (there : Multiset Batch).Nodup :=
    Multiset.coe_nodup.mpr (recipient.accounts.distinct.of_map _)
  have among : (there : Multiset Batch) ≤ x.sender.formed :=
    (Multiset.le_iff_subset once).mpr fun batch member => balanced.formed batch member
  have formed : c.outstanding.map (·.2) + (x.sender.cleared + x.putBack) = x.sender.formed :=
    sender.formed
  rw [tsub_le_iff_left, kept, Mailbox.outstandingBatches_of_conversation? balanced.known, add_assoc,
    formed]
  exact among

/-- What has arrived and what is kept have batches in common, and the rest of either is settled
    with what waits and with what was queued. -/
theorem Balanced.received (balanced : x.Balanced acquaintance c there) :
    Batch.messagesOf there +
        (x.waiting acquaintance + Batch.messagesOf (x.kept acquaintance - there)) =
      x.queued + Batch.messagesOf (there - x.kept acquaintance) := by
  have both : (there : Multiset Batch) + (x.kept acquaintance - there) =
      x.kept acquaintance + (there - x.kept acquaintance) := by
    rw [add_comm, add_comm (x.kept acquaintance)]
    exact Multiset.union_comm _ _
  have messages := congrArg Batch.messagesOf both
  rw [Batch.messagesOf_add, Batch.messagesOf_add] at messages
  have queued : x.waiting acquaintance + Batch.messagesOf (x.kept acquaintance) = x.queued := by
    rw [waiting, kept, Mailbox.outstandingBatches_of_conversation? balanced.known, balanced.known,
      Batch.messagesOf_add, ← balanced.copies, Conversation.copies, c.coe_outstandingMessages,
      add_assoc]
    rfl
  calc Batch.messagesOf there +
        (x.waiting acquaintance + Batch.messagesOf (x.kept acquaintance - there))
    _ = x.waiting acquaintance +
        (Batch.messagesOf there + Batch.messagesOf (x.kept acquaintance - there)) :=
      add_left_comm _ _ _
    _ = x.queued + Batch.messagesOf (there - x.kept acquaintance) := by
      rw [messages, ← add_assoc, queued]

/-- Whatever is queued, written, lost, read late or again, acknowledged and put back at any time:
    the messages received are those of batches of different names, and what the recipient has
    beyond what was queued is the messages of those among them that were put back and are not kept
    as they were, less the messages that wait and those in batches that have not arrived. So no
    message is received more often than it was queued exactly if what was put back after it had
    arrived still waits, or is on its way. -/
theorem received_le_queued_iff {begun : Resending} (begins : begun.Begins acquaintance)
    (run : Run acquaintance begun x) :
    ∃ arrived : List Batch,
      x.recipient.party.mailbox.received acquaintance.sender = arrived.flatMap (·.messages) ∧
      (arrived.map Batch.id).Nodup ∧
      (arrived : Multiset Batch) - x.kept acquaintance ≤ x.putBack ∧
      Batch.messagesOf arrived +
          (x.waiting acquaintance + Batch.messagesOf (x.kept acquaintance - arrived)) =
        x.queued + Batch.messagesOf (arrived - x.kept acquaintance) ∧
      ((x.recipient.party.mailbox.received acquaintance.sender : Multiset Bytes) ≤ x.queued ↔
        Batch.messagesOf (arrived - x.kept acquaintance) ≤
          x.waiting acquaintance + Batch.messagesOf (x.kept acquaintance - arrived)) := by
  obtain ⟨c₀, balanced₀⟩ := Balanced.begins begins
  obtain ⟨c, arrived, balanced⟩ := balanced₀.run run
  obtain ⟨d, next, windows, recipient⟩ := balanced.recipient
  have known : x.recipient.party.mailbox.conversation? acquaintance.sender = some d :=
    recipient.known
  have received : x.recipient.party.mailbox.received acquaintance.sender =
      arrived.flatMap (·.messages) := by
    rw [Mailbox.received, known]
    exact recipient.accounts.received
  have account := balanced.received
  refine ⟨arrived, received, recipient.accounts.distinct, balanced.sub_kept_le, account, ?_⟩
  have messages : (x.recipient.party.mailbox.received acquaintance.sender : Multiset Bytes) =
      Batch.messagesOf arrived := by
    rw [received, Batch.messagesOf, Multiset.coe_bind]
  rw [messages]
  constructor
  · intro within
    refine le_of_add_le_add_left (a := x.queued) ?_
    rw [← account]
    exact add_le_add_left within _
  · intro left
    refine le_of_add_le_add_right (a := x.waiting acquaintance + _) (account.trans_le ?_)
    exact add_le_add_right left _

/-! ## A batch that is put back after it has arrived -/

section

variable {transport : TransportIndex} {secret : Secret} {stream : Nat} {d : Conversation}

/-- The next connection of the sender on a transport is the one that the recipient waits for. -/
structure Attuned (acquaintance : Acquaintance) (transport : TransportIndex) (secret : Secret)
    (stream : Nat) (x : Resending) (c d : Conversation) : Prop where
  known : x.sender.party.mailbox.conversation? acquaintance.recipient = some c
  side : c.role = acquaintance.role
  lane : c.lanes.find? transport = some { secret, next := stream }
  once : c.acksOwed.Nodup
  known' : x.recipient.party.mailbox.conversation? acquaintance.sender = some d
  awaits : x.recipient.party.roster.Awaits ⟨acquaintance.sender, transport⟩ secret
    acquaintance.role.peer stream

theorem Attuned.begins {begun : Exchange} (begins : begun.Begins acquaintance)
    (common : transport ∈ acquaintance.transports) :
    ∃ secret c d, Attuned acquaintance transport secret 0 { toExchange := begun } c d ∧
      c.outstanding = [] := by
  obtain ⟨c, size, -, sender⟩ := begins.sender.stands
  obtain ⟨d, size', some, recipient⟩ := begins.recipient.stands
  obtain ⟨secret, shared, lane⟩ := sender.lanes transport common
  have none : c.outstanding = [] := sender.outstanding_eq_nil (by rw [begins.sender.unwritten])
  exact ⟨secret, c, d, ⟨sender.known, sender.side, lane, sender.accounts.owedOnce, recipient.known,
    (recipient.listens shared).awaits some⟩, none⟩

theorem Attuned.queue (attuned : Attuned acquaintance transport secret stream x c d)
    (message : Bytes) :
    ∃ y, Step acquaintance x y ∧
      y.sender.party = { x.sender.party with
        mailbox := (x.sender.party.mailbox.queue acquaintance.recipient message).2 } ∧
      y.queued = x.queued + {message} ∧ y.putBack = x.putBack ∧
      Attuned acquaintance transport secret stream y { c with queued := c.queued ++ [message] }
        d := by
  obtain ⟨known, side, lane, once, known', awaits⟩ := attuned
  have queued := Mailbox.update_of_conversation? known
    fun c => ((), { c with queued := c.queued ++ [message] })
  have after := Mailbox.conversation?_setConversation_self x.sender.party.mailbox
    acquaintance.recipient { c with queued := c.queued ++ [message] }
  refine ⟨_, .queue queued, ?_, rfl, rfl, after, side, lane, once, known', awaits⟩
  rw [Mailbox.queue, queued]

theorem Attuned.requeue (attuned : Attuned acquaintance transport secret stream x c d) :
    ∃ y, Step acquaintance x y ∧
      y.sender.party = { x.sender.party with
        mailbox := (x.sender.party.mailbox.requeue acquaintance.recipient).2 } ∧
      y.queued = x.queued ∧ y.putBack = x.putBack + c.outstanding.map (·.2) ∧
      Attuned acquaintance transport secret stream y c.requeue d := by
  obtain ⟨known, side, lane, once, known', awaits⟩ := attuned
  have requeued := Mailbox.update_of_conversation? known fun c => (c.unacknowledged, c.requeue)
  have after := Mailbox.conversation?_setConversation_self x.sender.party.mailbox
    acquaintance.recipient c.requeue
  refine ⟨_, .requeue requeued, ?_, rfl, ?_, after, side, lane, once, known', awaits⟩
  · rw [Mailbox.requeue, requeued]
  · rw [← Mailbox.outstandingBatches_of_conversation? known]

/-- Batches are sent while none is outstanding, and the connection is read at once. -/
theorem Attuned.relay (attuned : Attuned acquaintance transport secret stream x c d)
    (none : c.outstanding = []) (common : transport ∈ acquaintance.transports)
    {writer : WritingEnd Memory.Outbound} {device : Memory.Outbound} {party : Party} {bytes : Nat}
    (batches : List Batch) (faithful : writer.Faithful Memory.Outbound.bytes)
    (some : 0 < batches.length)
    (sent : x.sender.party.send ⟨acquaintance.recipient, transport⟩ writer {} =
      (.ok (.completed bytes batches.length), device, party))
    (outstanding : (party.mailbox.conversation? acquaintance.recipient).map
      (·.outstanding.map (·.2)) = .some batches) :
    ∃ y c', Run acquaintance x y ∧ y.sender.party = party ∧ y.queued = x.queued ∧
      y.putBack = x.putBack ∧ c'.outstanding.map (·.2) = batches ∧
      Attuned acquaintance transport secret (stream + 1) y c'
        (d.receiveAll (batches.map .batch)) := by
  obtain ⟨known, side, lane, once, known', awaits⟩ := attuned
  obtain ⟨c', after, -, hands, carries⟩ :=
    Exchange.batches_sent known lane once faithful some sent
      (by rw [outstanding, none, List.map_nil, List.nil_append])
  have fewer : party.mailbox.queuedCount acquaintance.recipient ≤
      x.sender.party.mailbox.queuedCount acquaintance.recipient := by
    have split := congrArg List.length hands.queued
    rw [Mailbox.queuedCount, Mailbox.queuedCount, after, known]
    simp only [Option.elim_some, List.length_append] at split ⊢
    omega
  rw [side, ← Role.peer_peer acquaintance.role] at carries
  have front : Memory.Inbound.rest { rest := device.bytes } = device.bytes := rfl
  have source := Memory.readingEnd_faithful Memory.ReadLimits.harmless_default
  obtain ⟨inbound, reader, received, mailbox, next⟩ :=
    Party.receive_of_carries source awaits known' (front.symm ▸ carries)
  have empty : ({} : Memory.Outbound).bytes = [] := rfl
  have there : Run acquaintance x _ :=
    .single (.sender (.send faithful empty common sent some) fewer)
  have got := there.tail (.recipient (.receive source (List.mem_append_right _ (by simp)) received))
  have kept : reader.mailbox.conversation? acquaintance.sender =
      .some (d.receiveAll (batches.map .batch)) := by
    rw [mailbox]
    exact Mailbox.conversation?_setConversation_self ..
  have lane' : c'.lanes.find? transport = .some { secret, next := stream + 1 } := by
    rw [hands.lanes]
    exact Table.find?_insert_self ..
  rw [after, Option.map_some, Option.some.injEq] at outstanding
  exact ⟨_, c', got, rfl, rfl, rfl, outstanding,
    ⟨after, hands.role.trans side, lane', hands.distinct, kept, next⟩⟩

/-- A message arrives, is put back before its batch is acknowledged, and is sent again in one batch
    with a message that was queued meanwhile. -/
private theorem run_packed_anew {begun : Exchange} (begins : begun.Begins acquaintance)
    (common : transport ∈ acquaintance.transports) (message more : Bytes)
    (bytes bytes' : Nat) {writer : WritingEnd Memory.Outbound}
    (faithful : writer.Faithful Memory.Outbound.bytes) {device device' : Memory.Outbound}
    {party party' : Party} {ready again : Mailbox}
    (queued : (begun.sender.party.mailbox.queue acquaintance.recipient message).2 = ready)
    (sent : Party.send { begun.sender.party with mailbox := ready }
      ⟨acquaintance.recipient, transport⟩ writer {} =
        (.ok (.completed bytes 1), device, party))
    (outstanding : (party.mailbox.conversation? acquaintance.recipient).map
      (·.outstanding.map (·.2)) = .some [⟨[message]⟩])
    (requeued : ((party.mailbox.queue acquaintance.recipient more).2.requeue
      acquaintance.recipient).2 = again)
    (resent : Party.send { party with mailbox := again } ⟨acquaintance.recipient, transport⟩
      writer {} = (.ok (.completed bytes' 1), device', party'))
    (outstanding' : (party'.mailbox.conversation? acquaintance.recipient).map
      (·.outstanding.map (·.2)) = .some [⟨[message, more]⟩]) :
    ∃ x d, Run acquaintance { toExchange := begun } x ∧ x.queued = {message} + {more} ∧
      x.putBack = {⟨[message]⟩} ∧
      begun.recipient.party.mailbox.conversation? acquaintance.sender = .some d ∧
      x.recipient.party.mailbox.received acquaintance.sender =
        ((d.receiveAll [.batch ⟨[message]⟩]).receiveAll
          [.batch ⟨[message, more]⟩]).received := by
  subst queued requeued
  obtain ⟨secret, c, d, attuned, none⟩ := Attuned.begins begins common
  obtain ⟨x₁, queue₁, party₁, queued₁, putBack₁, attuned₁⟩ := attuned.queue message
  obtain ⟨x₂, c₂, run₂, party₂, queued₂, putBack₂, batches, attuned₂⟩ :=
    attuned₁.relay none common [⟨[message]⟩] faithful Nat.one_pos (party₁ ▸ sent) outstanding
  obtain ⟨x₃, queue₃, party₃, queued₃, putBack₃, attuned₃⟩ := attuned₂.queue more
  obtain ⟨x₄, requeue₄, party₄, queued₄, putBack₄, attuned₄⟩ := attuned₃.requeue
  rw [party₃, party₂] at party₄
  obtain ⟨x, c₅, run₅, -, queued₅, putBack₅, -, attuned₅⟩ :=
    attuned₄.relay rfl common [⟨[message, more]⟩] faithful Nat.one_pos (party₄ ▸ resent)
      outstanding'
  have run := (((Relation.ReflTransGen.single queue₁).trans run₂).tail queue₃).tail requeue₄
  refine ⟨x, d, run.trans run₅, ?_, ?_, attuned.known', ?_⟩
  · rw [queued₅, queued₄, queued₃, queued₂, queued₁, zero_add]
  · rw [putBack₅, putBack₄, putBack₃, putBack₂, putBack₁, batches]
    exact zero_add _
  · rw [Mailbox.received, attuned₅.known']
    rfl

end

set_option maxRecDepth 100000 in
private theorem exists_run_packed_anew :
    ∃ begun x, begun.Begins Exchange.neighbours ∧ Run Exchange.neighbours begun x ∧
      x.putBack = {⟨[[109]]⟩} ∧
      ¬ (x.recipient.party.mailbox.received Exchange.neighbours.sender : Multiset Bytes) ≤
        x.queued := by
  have writer := Memory.writingEnd_faithful {} 1000 Frame.maxLength
  have common : (⟨0⟩ : TransportIndex) ∈ Exchange.neighbours.transports :=
    List.mem_singleton_self _
  obtain ⟨x, d, run, queued, putBack, known, received⟩ :=
    run_packed_anew Exchange.begins_conversing common [109] [110] 108 110 writer rfl
      (eq_of_toOption (by decide +kernel)) (by decide +kernel) rfl
      (eq_of_toOption (by decide +kernel)) (by decide +kernel)
  have three : x.recipient.party.mailbox.received Exchange.neighbours.sender =
      [[109], [109], [110]] := by
    calc x.recipient.party.mailbox.received Exchange.neighbours.sender
      _ = (Exchange.conversing.recipient.party.mailbox.conversation? ⟨1⟩).elim [] fun d =>
          ((d.receiveAll [.batch ⟨[[109]]⟩]).receiveAll
            [.batch ⟨[[109], [110]]⟩]).received := by
        rw [received, show Mailbox.conversation? _ ⟨1⟩ = some d from known]
        rfl
      _ = [[109], [109], [110]] := by decide +kernel
  refine ⟨_, x, ⟨_, Exchange.begins_conversing, rfl⟩, run, putBack, fun within => ?_⟩
  rw [three, queued] at within
  exact absurd (Multiset.card_le_card within) (by decide)

/-- The batch that was put back had arrived, and its message neither waits nor is on its way. -/
theorem received_le_queued_iff_packed_anew :
    ∃ acquaintance begun x, Begins acquaintance begun ∧ Run acquaintance begun x ∧
      ∃ arrived : List Batch,
        x.recipient.party.mailbox.received acquaintance.sender = arrived.flatMap (·.messages) ∧
        (arrived.map Batch.id).Nodup ∧
        (arrived : Multiset Batch) - x.kept acquaintance ≤ {⟨[[109]]⟩} ∧
        ¬ Batch.messagesOf (arrived - x.kept acquaintance) ≤
          x.waiting acquaintance + Batch.messagesOf (x.kept acquaintance - arrived) := by
  obtain ⟨begun, x, begins, run, putBack, more⟩ := exists_run_packed_anew
  obtain ⟨arrived, received, distinct, settled, -, within_iff⟩ :=
    received_le_queued_iff begins run
  rw [putBack] at settled
  exact ⟨_, begun, x, begins, run, arrived, received, distinct, settled, more ∘ within_iff.mpr⟩

/-- A message that was queued once is received twice. -/
theorem not_forall_received_le :
    ¬ ∀ acquaintance begun x, Begins acquaintance begun → Run acquaintance begun x →
      (x.recipient.party.mailbox.received acquaintance.sender : Multiset Bytes) ≤ x.queued := by
  intro within
  obtain ⟨begun, x, begins, run, -, more⟩ := exists_run_packed_anew
  exact more (within _ begun x begins run)

end Resending

end Courier
