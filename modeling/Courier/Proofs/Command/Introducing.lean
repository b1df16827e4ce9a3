import Courier.Proofs.Command.PickingUp
import Courier.Proofs.Curve.Agreement
import Courier.Proofs.Random.Minting

/-! # Introducing two parties

Two parties with a root secret of their own meet on one transport: each can send
on the first stream of the other's lane, and hears nobody else. The messages
that are queued are random, but their number and their length are as asked.
-/

namespace Courier.Command

/-! ## Parties that know one contact -/

/-- The conversation with a contact who was just added. -/
def begun (secret : Secret) (role : Role) : Conversation :=
  { role, lanes := Table.empty.insert onlyTransport { secret } }

/-- A party has just met a contact: it sends on the first stream of their lane, and hears nobody
    else. -/
structure Met (contact : ContactId) (secret : Secret) (role : Role) (c : Conversation)
    (party : Party) : Prop where
  ready : party.Ready ⟨contact, onlyTransport⟩ secret role 0 c
  expects : party.roster.Expects ⟨contact, onlyTransport⟩ secret role
    (.fresh Window.defaultSize 0)
  only : ∀ other entry, party.roster.entries.find? other = some entry →
    other = ⟨contact, onlyTransport⟩

theorem Met.hears {contact : ContactId} {secret : Secret} {role : Role} {c : Conversation}
    {party : Party} (met : Met contact secret role c party) :
    party.Hears ⟨contact, onlyTransport⟩ secret role where
  expects := ⟨_, met.expects⟩
  known := ⟨c, met.ready.known⟩
  only := met.only

/-- More messages may be queued. -/
theorem Met.queue {contact : ContactId} {secret : Secret} {role : Role} {c : Conversation}
    {party : Party} (met : Met contact secret role c party) (queued : List Bytes) :
    Met contact secret role { c with queued }
      { party with mailbox := party.mailbox.setConversation contact { c with queued } } where
  ready :=
    { known := Mailbox.conversation?_setConversation_self ..
      side := met.ready.side
      lane := met.ready.lane
      once := met.ready.once
      transports := met.ready.transports
      subscriptions := met.ready.subscriptions }
  expects := met.expects
  only := met.only

/-- A root secret that leads to a usable secret of the transport makes a party. -/
theorem exists_met (contact : ContactId) {root secret : Secret} (role : Role)
    (derived : root.derive (.transportSecret onlyTransport.number) = .ok secret)
    (usable : secret.isBlank = false) :
    ∃ party, partyWith contact root role = .ok party ∧
      Met contact secret role (begun secret role) party := by
  obtain ⟨peerTagKey, peer⟩ := Secret.derive_of_usable (.tagKey role.peer) usable (Nat.zero_le _)
  let entry : Roster.Entry := { secret, peerTagKey, role, window := .fresh Window.defaultSize 0 }
  let party : Party :=
    { mailbox := ({} : Mailbox).setConversation contact (begun secret role)
      roster :=
        { windowSize := Window.defaultSize
          entries := Table.empty.insert ⟨contact, onlyTransport⟩ entry } }
  have started : Conversation.start root role [onlyTransport] = .ok (begun secret role) := by
    simp only [Conversation.start, List.mapM_cons, List.mapM_nil, derived]
    rfl
  have added : ({} : Mailbox).addContact contact root role [onlyTransport] =
      (.ok (), ({} : Mailbox).setConversation contact (begun secret role)) := by
    rw [Mailbox.addContact, started]
  have routes : (({} : Mailbox).setConversation contact (begun secret role)).routes =
      [(⟨contact, onlyTransport⟩, { secret }, role)] := rfl
  have made : partyWith contact root role = .ok party := by
    simp only [partyWith, added, Party.expectIncoming, Mailbox.expectIncoming]
    rw [routes]
    simp only [Mailbox.expectRoutes, Roster.expect, peer]
    rfl
  have expects : party.roster.entries.find? ⟨contact, onlyTransport⟩ = some entry :=
    Table.find?_insert_self ..
  refine ⟨party, made, ?_, ⟨peerTagKey, peer, expects⟩, fun other its found => ?_⟩
  · constructor
    case known => exact Mailbox.conversation?_setConversation_self ..
    case side | transports | subscriptions => rfl
    case lane => exact Table.find?_insert_self ..
    case once => exact .nil
  · by_contra different
    rw [Table.find?_insert_of_ne _ _ (Ne.symm different)] at found
    cases found

/-! ## Queueing -/

/-- So many messages of this size are queued after those that are there. -/
theorem exists_gives_queueRandom {mailbox : Mailbox} {contact : ContactId} {c : Conversation}
    (known : mailbox.conversation? contact = some c) (size count : Nat) (stream : KeyStream)
    (s : Shelf) :
    ∃ drawn stream', drawn.length = count ∧ (∀ message ∈ drawn, message.length = size) ∧
      (queueRandom contact size count mailbox).Gives stream s
        (.ok (mailbox.setConversation contact { c with queued := c.queued ++ drawn })) stream'
        (s.skip count) := by
  induction count generalizing mailbox c stream s with
  | zero =>
      refine ⟨[], stream, rfl, by simp, ?_⟩
      rw [List.append_nil, Mailbox.setConversation_of_conversation? known, s.skip_zero]
      exact .pure ..
  | succ count ih =>
      let message := xorBytes ((List.range size).map (s.draws 0)) (stream.take size).1
      have length : message.length = size := by simp [message, KeyStream.length_take]
      let c' : Conversation := { c with queued := c.queued ++ [message] }
      have queued : mailbox.queue contact message = (.ok (), mailbox.setConversation contact c') :=
        Mailbox.update_of_conversation? known _
      have known' : (mailbox.setConversation contact c').conversation? contact = some c' :=
        Mailbox.conversation?_setConversation_self ..
      obtain ⟨drawn, stream', many, sizes, rest⟩ := ih known' (stream.take size).2 (s.skip 1)
      refine ⟨message :: drawn, stream', by rw [List.length_cons, many],
        List.forall_mem_cons.mpr ⟨length, sizes⟩, ?_⟩
      have drew : Mint.Gives (Mint.draw size) stream s message (stream.take size).2 (s.skip 1) :=
        .draw ..
      refine drew.bind ?_
      rw [queued]
      rw [Mailbox.setConversation_setConversation, Shelf.skip_skip, Nat.add_comm 1] at rest
      rw [List.append_cons]
      exact rest

/-! ## Meeting -/

/-- The key pairs that are drawn first. -/
def drawPairs : Mint Shelving (Option KeyPair × Option KeyPair) := do
  return (← Mint.keyPair, ← Mint.keyPair)

theorem run_drawPairs {s between after : Shelf} {stream stream' : KeyStream}
    {one two : Option KeyPair}
    (gives : Mint.keyPair.Gives (.ofSeed ((List.range secretLength).map (s.draws 0))) (s.skip 1) one
      stream between)
    (gives' : Mint.keyPair.Gives stream between two stream' after) :
    (Mint.run drawPairs : Shelving _).run s = ((one, two), after) := by
  have both : Mint.Gives drawPairs (.ofSeed ((List.range secretLength).map (s.draws 0))) (s.skip 1)
      (one, two) stream' after := gives.bind (gives'.bind (.pure ..))
  exact both.run

theorem agree_parties {alicePair bobPair : KeyPair} {root secret : Secret}
    (agrees : alicePair.AgreesWith bobPair)
    (rooted : alicePair.rootSecret bobPair.publicKey true = .ok root)
    (derived : root.derive (.transportSecret onlyTransport.number) = .ok secret)
    (usable : secret.isBlank = false) :
    ∃ first second, agree alicePair bobPair = .ok (first, second) ∧
      Met bob secret .alice (begun secret .alice) first ∧
      Met alice secret .bob (begun secret .bob) second := by
  obtain ⟨first, made, met⟩ := exists_met bob .alice derived usable
  obtain ⟨second, made', met'⟩ := exists_met alice .bob derived usable
  refine ⟨first, second, ?_, met, met'⟩
  simp only [agree, rooted, agrees.rootSecret rooted, Except.mapError, bind, Except.bind, ne_eq,
    not_true_eq_false, ↓reduceIte, made, made']
  rfl

/-- The key pairs that are drawn first agree, so the parties meet, and the first has random messages
    to send. -/
theorem exists_introduction {s : Shelf} {alicePair bobPair : KeyPair} {root secret : Secret}
    (drawn : ((Mint.run drawPairs).run s).1 = (some alicePair, some bobPair))
    (agrees : alicePair.AgreesWith bobPair)
    (rooted : alicePair.rootSecret bobPair.publicKey true = .ok root)
    (derived : root.derive (.transportSecret onlyTransport.number) = .ok secret)
    (usable : secret.isBlank = false) (messages messageSize : Nat) :
    ∃ first second c count,
      (Mint.run (introduce messages messageSize) : Shelving _).run s =
        (.ok (first, second), s.skip count) ∧
      Met bob secret .alice c first ∧ Met alice secret .bob (begun secret .bob) second ∧
      c.queued.length = messages ∧ (∀ message ∈ c.queued, message.length = messageSize) ∧
      c.acksOwed = [] := by
  obtain ⟨first, second, agreed, met, met'⟩ := agree_parties agrees rooted derived usable
  let seed := (List.range secretLength).map (s.draws 0)
  obtain ⟨one, stream, count, gives⟩ := Mint.exists_gives_keyPair (.ofSeed seed) (s.skip 1)
  obtain ⟨two, stream', count', gives'⟩ := Mint.exists_gives_keyPair stream ((s.skip 1).skip count)
  have both : (one, two) = (some alicePair, some bobPair) := by
    rw [← drawn, run_drawPairs gives gives']
  obtain ⟨rfl, rfl⟩ := Prod.mk.inj both
  obtain ⟨queued, stream'', many, sizes, gives''⟩ :=
    exists_gives_queueRandom met.ready.known messageSize messages stream'
      (((s.skip 1).skip count).skip count')
  refine ⟨_, second, _, 1 + (count + (count' + messages)), ?_, met.queue queued, met', many, sizes,
    rfl⟩
  rw [← Shelf.skip_skip, ← Shelf.skip_skip, ← Shelf.skip_skip]
  have whole : Mint.Gives (introduce messages messageSize) (.ofSeed seed) (s.skip 1) _ stream'' _ :=
    gives.bind (gives'.bind (by
      simp only [agreed]
      exact gives''.bind (.pure ..)))
  exact whole.run

end Courier.Command
