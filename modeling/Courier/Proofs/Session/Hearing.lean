import Courier.Proofs.Session.Posting

/-! # Hearing one contact

A party that expects the connections of one route, and of no other, receives
whatever comes from the other side without fault: it reads it, or does not
recognise it. It does not recognise its own connections. Meanwhile it stays as
ready to send as it was, and owes at most an acknowledgement for each record.
-/

namespace Courier

open Session (ReceiveOutcome)

namespace Party

/-- The party expects connections of one route and no others, and knows who sends them. -/
structure Hears (route : Route) (secret : Secret) (role : Role) (p : Party) : Prop where
  expects : ∃ window, p.roster.Expects route secret role window
  known : ∃ c, p.mailbox.conversation? route.contact = some c
  only : ∀ other entry, p.roster.entries.find? other = some entry → other = route

/-- The bytes come from the other side, or from this side and the keys of the other do not read the
    tag. -/
inductive Meets (secret : Secret) (role : Role) (bytes : Bytes) : Prop where
  | theirs {stream : Nat} {records : List Record}
      (carries : Session.Carries secret stream role.peer records bytes)
  | ours {stream : Nat} {records : List Record}
      (carries : Session.Carries secret stream role records bytes)
      (foreign : ∀ tag key, Tag.make secret stream role = .ok tag →
        secret.derive (.tagKey role.peer) = .ok key → tag.decode key = none)

variable {route : Route} {secret : Secret} {role : Role} {p : Party}

theorem Hears.apart (hears : p.Hears route secret role) (tag : Tag) :
    p.roster.Apart route tag :=
  fun other _ found different => absurd (hears.only other _ found) different

/-- A connection of the other side is read, or is not recognised, and the party goes on hearing. -/
theorem Hears.receive_theirs (hears : p.Hears route secret role) {ρ : Type} {reader : ReadingEnd ρ}
    {left : ρ → Bytes} {device : ρ} {stream : Nat} {records : List Record}
    (faithful : reader.Faithful left)
    (carries : Session.Carries secret stream role.peer records (left device)) :
    ∃ outcome device' p', p.receive reader device = (.ok outcome, device', p') ∧
      p'.Hears route secret role ∧ (p'.mailbox = p.mailbox ∨
        ∃ c, p.mailbox.conversation? route.contact = some c ∧
          p'.mailbox = p.mailbox.setConversation route.contact (c.receiveAll records)) := by
  obtain ⟨window, expects⟩ := hears.expects
  obtain ⟨c, known⟩ := hears.known
  cases accepted : window.accept? stream with
  | some window' =>
      obtain ⟨device', received⟩ := receive_of_expected faithful expects
        (fun _ => hears.apart _) known carries accepted
      refine ⟨_, device', _, received, ?_, .inr ⟨c, known, rfl⟩⟩
      constructor
      case expects => exact ⟨window', expects.withWindow window'⟩
      case known => exact ⟨_, Mailbox.conversation?_setConversation_self ..⟩
      case only =>
        intro other its found
        by_contra different
        rw [Roster.find?_withWindow_of_ne different] at found
        exact different (hears.only other its found)
  | none =>
      obtain ⟨device', received⟩ := receive_of_unexpected faithful expects
        (fun _ => hears.apart _) carries accepted
      exact ⟨_, device', p, received, hears, .inl rfl⟩

/-- Such bytes are received without fault, and the party goes on hearing. -/
theorem Hears.receive (hears : p.Hears route secret role) {bytes : Bytes}
    (meets : Meets secret role bytes) :
    ∃ outcome device p', p.receive (Memory.readingEnd {}) { rest := bytes } =
      (.ok outcome, device, p') ∧ p'.Hears route secret role := by
  have faithful := Memory.readingEnd_faithful Memory.ReadLimits.harmless_default
  cases meets with
  | @theirs stream records carries =>
      have front : Session.Carries secret stream role.peer records
        (Memory.Inbound.rest { rest := bytes }) := carries
      obtain ⟨outcome, device, p', received, still, -⟩ := hears.receive_theirs faithful front
      exact ⟨outcome, device, p', received, still⟩
  | @ours stream records carries foreign =>
      obtain ⟨tag, key, tagged, -, spelled⟩ := carries.spelled
      obtain ⟨window, peerTagKey, peer, entry⟩ := hears.expects
      have unrecognised : p.roster.recognise tag = (none, p.roster) := by
        refine Roster.recognise_of_none fun {other its} found => ?_
        obtain rfl := hears.only other its found
        obtain rfl := Option.some.inj (entry.symm.trans found)
        simp [Roster.Entry.accept?, foreign tag peerTagKey tagged peer]
      obtain ⟨s, received, mailbox, roster⟩ := Session.Receiving.receive_of_unrecognised faithful
        (s := p.receiving { rest := bytes }) rfl spelled unrecognised
      refine ⟨.unrecognised, s.device, p, ?_, hears⟩
      simp only [Party.receive, received, mailbox, roster]
      rfl

/-- Records that arrive leave a party as ready to send as before. -/
theorem Ready.receiveAll {next : Nat} {c : Conversation} {p' : Party}
    (ready : p.Ready route secret role next c) (records : List Record)
    (after : p'.mailbox = p.mailbox.setConversation route.contact (c.receiveAll records)) :
    p'.Ready route secret role next (c.receiveAll records) where
  known := after ▸ Mailbox.conversation?_setConversation_self ..
  side := (Conversation.side_receiveAll records c).1.trans ready.side
  lane := by rw [(Conversation.side_receiveAll records c).2, ready.lane]
  once := Conversation.nodup_acksOwed_receiveAll records ready.once
  transports := after ▸ ready.transports
  subscriptions := after ▸ ready.subscriptions

/-- A party that has read letters is as ready to send as before, and owes at most an
    acknowledgement for each record. -/
theorem Reads.ready {next : Nat} {c : Conversation} {last : Party} {letters : List Letter}
    {results : List (Except SessionFault ReceiveOutcome)} (reads : p.Reads letters results last)
    (hears : p.Hears route secret role) (ready : p.Ready route secret role next c)
    (posted : ∀ letter ∈ letters, letter.Posted secret role.peer) :
    ∃ c', last.Ready route secret role next c' ∧ c'.queued = c.queued ∧
      c'.acksOwed.length ≤ c.acksOwed.length + (letters.flatMap (·.records)).length := by
  induction reads generalizing c with
  | nil => exact ⟨c, ready, rfl, Nat.le_add_right _ _⟩
  | @cons ρ reader left device device' p p' last letter order result results faithful whole received
      rest ih =>
      obtain ⟨first, others⟩ := List.forall_mem_cons.mp posted
      obtain ⟨outcome, device'', p'', received', hears', mailbox⟩ :=
        hears.receive_theirs faithful (whole.symm ▸ first.carries)
      rw [received'] at received
      obtain ⟨rfl, rfl, rfl⟩ := received
      rw [List.flatMap_cons, List.length_append]
      rcases mailbox with same | ⟨its, known, after⟩
      · have ready' : p'.Ready route secret role next c :=
          ⟨same ▸ ready.known, ready.side, ready.lane, ready.once, same ▸ ready.transports,
            same ▸ ready.subscriptions⟩
        obtain ⟨c', last, queued, owed⟩ := ih hears' ready' others
        exact ⟨c', last, queued, by omega⟩
      · obtain rfl := Option.some.inj (ready.known.symm.trans known)
        obtain ⟨c', last, queued, owed⟩ := ih hears' (ready.receiveAll _ after) others
        have more := Conversation.length_acksOwed_receiveAll letter.records c
        exact ⟨c', last, queued.trans (Conversation.queued_receiveAll ..), by omega⟩

end Party

end Courier
