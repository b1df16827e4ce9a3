import Courier.Proofs.Connection.Reading
import Courier.Proofs.Connection.Roster
import Courier.Proofs.Record
import Courier.Proofs.Session.Completion
import Courier.Proofs.Tag

/-! # Receiving a connection that carries records

A connection that carries records is read to its end, and each of its frames
gives back the record that was sealed in it, so the receiver takes exactly these
records in their order. New batches then add their messages to what was
received. The roster recognises the tag if the connection is the next one of its
route and no other entry decodes the tag.
-/

namespace Courier

/-- The names of the batches among records. -/
def Record.batchIds (records : List Record) : List BatchId :=
  (records.filterMap Record.batch?).map (·.1)

theorem Record.batchIds_append (records more : List Record) :
    batchIds (records ++ more) = batchIds records ++ batchIds more := by
  simp [batchIds, List.filterMap_append]

theorem Record.encode_ne_nil (record : Record) : record.encode ≠ [] := by
  cases record <;> simp [encode, tagged, Cbor.write_ne_nil]

namespace Conversation

/-- The conversation after records arrived one after the other. -/
def receiveAll (records : List Record) (c : Conversation) : Conversation :=
  records.foldl (fun c record => c.receive record) c

/-- Every batch that arrived is owed an acknowledgement, in the order of arrival. -/
def OwesAll (c : Conversation) : Prop :=
  c.acksOwed = c.seen.reverse

/-- A record whose batch did not arrive before adds its messages, and its batch to what is owed. -/
theorem receive_fresh (record : Record) {c : Conversation} (owes : c.OwesAll)
    (fresh : ∀ id ∈ Record.batchIds [record], id ∉ c.seen) :
    (c.receive record).received = c.received ++ record.messages ∧
      (c.receive record).seen.reverse = c.seen.reverse ++ Record.batchIds [record] ∧
      (c.receive record).OwesAll := by
  simp only [OwesAll] at owes ⊢
  cases record with
  | transportUpdate | subscriptionUpdate =>
      simp [Record.messages, Record.batchIds, Record.batch?, owes]
  | ack ack => simp [receive, Record.messages, Record.batchIds, Record.batch?, owes]
  | batch sent =>
      have absent : sent.id ∉ c.seen := fresh sent.id (by simp [Record.batchIds, Record.batch?])
      simp [absent, owes, Record.messages, Record.batchIds, Record.batch?]

/-- Batches that did not arrive before, all of them different, add their messages in order. -/
theorem receiveAll_fresh {records : List Record} {c : Conversation} (owes : c.OwesAll)
    (distinct : (c.seen.reverse ++ Record.batchIds records).Nodup) :
    (c.receiveAll records).received = c.received ++ records.flatMap Record.messages ∧
      (c.receiveAll records).seen.reverse = c.seen.reverse ++ Record.batchIds records ∧
      (c.receiveAll records).OwesAll := by
  induction records generalizing c with
  | nil => simpa [receiveAll, Record.batchIds] using owes
  | cons record records ih =>
      have split : Record.batchIds (record :: records) =
          Record.batchIds [record] ++ Record.batchIds records :=
        Record.batchIds_append [record] records
      rw [split] at distinct ⊢
      have fresh : ∀ id ∈ Record.batchIds [record], id ∉ c.seen := by
        intro id member seen
        have apart := (List.nodup_append.mp distinct).2.2
        exact apart id (by simpa using seen) id (List.mem_append_left _ member) rfl
      obtain ⟨received, seen, owesNext⟩ := receive_fresh record owes fresh
      rw [← List.append_assoc, ← seen] at distinct
      obtain ⟨moreReceived, moreSeen, owesLast⟩ := ih owesNext distinct
      refine ⟨?_, ?_, owesLast⟩
      · rw [receiveAll, List.foldl_cons, ← receiveAll, moreReceived, received, List.flatMap_cons,
          List.append_assoc]
      · rw [receiveAll, List.foldl_cons, ← receiveAll, moreSeen, seen, List.append_assoc]

end Conversation

/-- A tag gives its stream number back under the tag key of its sender. -/
theorem Tag.decode_make {secret key : Secret} {stream : Nat} {sender : Role} {tag : Tag}
    (made : make secret stream sender = .ok tag)
    (derived : secret.derive (.tagKey sender) = .ok key) : tag.decode key = some stream := by
  simp only [make, derived, bind, Except.bind] at made
  exact decode_encode made

namespace Roster

/-- No tag of the other side of a route is taken for one of another route. -/
def TellsApart (roster : Roster) (route : Route) (secret : Secret) (sender : Role) : Prop :=
  ∀ {stream : Nat} {tag : Tag} {other : Route} {its : Entry},
    Tag.make secret stream sender = .ok tag → roster.entries.find? other = some its →
      other ≠ route → tag.decode its.peerTagKey = none

/-- Connections on a route are accepted by this window, and no other route can claim them. -/
structure Listens (roster : Roster) (route : Route) (secret : Secret) (role : Role)
    (window : Window) : Prop where
  entry : ∃ peerTagKey, secret.derive (.tagKey role.peer) = .ok peerTagKey ∧
    roster.entries.find? route = some { secret, peerTagKey, role, window }
  apart : roster.TellsApart route secret role.peer

/-- What is heard on any other route is still heard. -/
def KeepsOthers (route : Route) (before after : Roster) : Prop :=
  ∀ {other : Route} {secret : Secret} {role : Role} {window : Window}, other ≠ route →
    before.Listens other secret role window → after.Listens other secret role window

/-- Connections on a route are accepted by this window. -/
def Expects (roster : Roster) (route : Route) (secret : Secret) (role : Role) (window : Window) :
    Prop :=
  ∃ peerTagKey, secret.derive (.tagKey role.peer) = .ok peerTagKey ∧
    roster.entries.find? route = some { secret, peerTagKey, role, window }

/-- No entry of another route decodes the tag. -/
def Apart (roster : Roster) (route : Route) (tag : Tag) : Prop :=
  ∀ ⦃other its⦄, roster.entries.find? other = some its → other ≠ route →
    tag.decode its.peerTagKey = none

/-- The same roster, but for the window of one route. -/
def withWindow (roster : Roster) (route : Route) (window : Window) : Roster :=
  match roster.entries.find? route with
  | some entry => { roster with entries := roster.entries.insert route { entry with window } }
  | none => roster

section Windows

variable {roster : Roster} {route other : Route} {entry : Entry}

theorem withWindow_of_find? (found : roster.entries.find? route = some entry) (window : Window) :
    roster.withWindow route window =
      { roster with entries := roster.entries.insert route { entry with window } } := by
  rw [withWindow, found]

theorem find?_withWindow_self (found : roster.entries.find? route = some entry)
    (window : Window) :
    (roster.withWindow route window).entries.find? route = some { entry with window } := by
  rw [withWindow_of_find? found, Table.find?_insert_self]

theorem find?_withWindow_of_ne (different : other ≠ route) (window : Window) :
    (roster.withWindow route window).entries.find? other = roster.entries.find? other := by
  rw [withWindow]
  split
  · exact Table.find?_insert_of_ne _ _ different.symm
  · rfl

theorem withWindow_withWindow (roster : Roster) (route : Route) (window window' : Window) :
    (roster.withWindow route window).withWindow route window' =
      roster.withWindow route window' := by
  cases found : roster.entries.find? route with
  | none => simp only [withWindow, found]
  | some entry =>
      rw [withWindow_of_find? (find?_withWindow_self found window), withWindow_of_find? found,
        withWindow_of_find? found, Table.insert_insert]

/-- Only the key of an entry tells whose tags it decodes. -/
theorem keepsOthers_withWindow (roster : Roster) (route : Route) (moved : Window) :
    roster.KeepsOthers route (roster.withWindow route moved) := by
  intro other secret role window different listens
  obtain ⟨⟨peerTagKey, peer, expected⟩, apart⟩ := listens
  refine ⟨⟨peerTagKey, peer, ?_⟩, ?_⟩
  · rw [find?_withWindow_of_ne different, expected]
  · intro stream tag third entry made held apartFrom
    by_cases same : third = route
    · subst same
      cases found : roster.entries.find? third with
      | none =>
          rw [withWindow, found] at held
          exact apart made held apartFrom
      | some its =>
          rw [find?_withWindow_self found] at held
          obtain rfl := Option.some.inj held
          have foreign : tag.decode its.peerTagKey = none := apart made found apartFrom
          exact foreign
    · rw [find?_withWindow_of_ne same] at held
      exact apart made held apartFrom

end Windows

section Listens

variable {roster : Roster} {route : Route} {secret : Secret} {role : Role} {stream : Nat}
  {window window' : Window} {tag : Tag}

theorem Expects.recognise (expects : roster.Expects route secret role window)
    (tagged : Tag.make secret stream role.peer = .ok tag) (apart : roster.Apart route tag)
    (accepted : window.accept? stream = some window') :
    roster.recognise tag =
      (some { route, secret, stream, role }, roster.withWindow route window') := by
  obtain ⟨peerTagKey, peer, expected⟩ := expects
  have decoded := Tag.decode_make tagged peer
  have answered : Entry.accept? { secret, peerTagKey, role, window } tag =
      some (stream, { secret, peerTagKey, role, window := window' }) := by
    simp [Entry.accept?, decoded, accepted]
  rw [withWindow_of_find? expected]
  exact recognise_of_unique expected answered fun found different => apart found different

theorem Expects.refuse (expects : roster.Expects route secret role window)
    (tagged : Tag.make secret stream role.peer = .ok tag) (apart : roster.Apart route tag)
    (refused : window.accept? stream = none) : roster.recognise tag = (none, roster) := by
  obtain ⟨peerTagKey, peer, expected⟩ := expects
  refine recognise_of_none fun {other its} found => ?_
  by_cases same : other = route
  · subst same
    obtain rfl := Option.some.inj (expected.symm.trans found)
    simp [Entry.accept?, Tag.decode_make tagged peer, refused]
  · simp [Entry.accept?, apart found same]

theorem Expects.withWindow (expects : roster.Expects route secret role window)
    (window' : Window) : (roster.withWindow route window').Expects route secret role window' := by
  obtain ⟨peerTagKey, peer, expected⟩ := expects
  exact ⟨peerTagKey, peer, find?_withWindow_self expected window'⟩

theorem Apart.withWindow (apart : roster.Apart route tag) (window : Window) :
    (roster.withWindow route window).Apart route tag := by
  intro other its found different
  rw [find?_withWindow_of_ne different] at found
  exact apart found different

theorem Listens.withWindow (listens : roster.Listens route secret role window)
    (window' : Window) : (roster.withWindow route window').Listens route secret role window' where
  entry := Expects.withWindow listens.entry window'
  apart := by
    intro stream tag other its made found different
    rw [find?_withWindow_of_ne different] at found
    exact listens.apart made found different

end Listens

/-- The next connection on a route is number `stream`, and no other route can claim it. -/
structure Awaits (roster : Roster) (route : Route) (secret : Secret) (role : Role)
    (stream : Nat) : Prop where
  expected : ∃ size peerTagKey, 0 < size ∧ secret.derive (.tagKey role.peer) = .ok peerTagKey ∧
    roster.entries.find? route = some { secret, peerTagKey, role, window := .fresh size stream }
  apart : roster.TellsApart route secret role.peer

theorem Awaits.listens {roster : Roster} {route : Route} {secret : Secret} {role : Role}
    {stream : Nat} (awaits : roster.Awaits route secret role stream) :
    ∃ size, 0 < size ∧ roster.Listens route secret role (.fresh size stream) := by
  obtain ⟨⟨size, peerTagKey, positive, peer, expected⟩, apart⟩ := awaits
  exact ⟨size, positive, ⟨peerTagKey, peer, expected⟩, apart⟩

theorem Listens.awaits {roster : Roster} {route : Route} {secret : Secret} {role : Role}
    {size stream : Nat} (some : 0 < size)
    (listens : roster.Listens route secret role (.fresh size stream)) :
    roster.Awaits route secret role stream := by
  obtain ⟨⟨peerTagKey, peer, expected⟩, apart⟩ := listens
  exact ⟨⟨size, peerTagKey, some, peer, expected⟩, apart⟩

end Roster

namespace Session

variable {ρ : Type} {left : ρ → Bytes}

section Run

variable {σ : Type} {receiver : RecordReceiver σ} {source : Source ρ} {contact : ContactId}
  {d : Delivery σ ρ} {frames : FrameReader ρ}

theorem Delivery.run_of_end (ended : d.frames.next source = (.ok none, frames)) :
    d.run receiver source contact = (.ok (), { d with frames }) := by
  rw [Delivery.run]
  split
  next failed =>
    rw [ended] at failed
    cases failed
  next again =>
    rw [ended] at again
    obtain ⟨-, rfl⟩ := Prod.mk.inj again
    rfl
  next more =>
    rw [ended] at more
    cases more

theorem Delivery.run_of_record {record : Record} {mailbox : σ}
    (answered : d.frames.next source = (.ok (some record.encode), frames))
    (decoded : Record.decode record.encode = .ok record)
    (taken : receiver.receive contact record d.mailbox = (.ok (), mailbox)) :
    d.run receiver source contact =
      Delivery.run receiver source contact { mailbox, frames, count := d.count + 1 } := by
  rw [Delivery.run]
  split
  next failed =>
    rw [answered] at failed
    cases failed
  next ended =>
    rw [answered] at ended
    cases ended
  next payload between given =>
    rw [answered] at given
    obtain ⟨same, rfl⟩ := Prod.mk.inj given
    obtain rfl := Option.some.inj (Except.ok.inj same)
    have filled : record.encode.isEmpty = false := by simpa using record.encode_ne_nil
    simp only [filled, Bool.false_eq_true, if_false, decoded, taken]

end Run

/-- The frames of records are read as these records, and the receiver takes them in order. -/
theorem Delivery.run_of_frames {source : Source ρ} (yields : source.Yields left)
    {contact : ContactId} {records : List Record} {d : Delivery Mailbox ρ} {c : Conversation}
    (found : d.mailbox.conversation? contact = some c) (sound : d.frames.faulted = false)
    (unfinished : d.frames.finished = false)
    (numbers : d.frames.frames + (framesOf records).length ≤ Frame.maxNumber + 1)
    (within : Frame.Within d.frames.maxLength (framesOf records))
    (limited : d.frames.maxLength ≤ Frame.maxLength)
    (whole : left d.frames.device =
      Frame.bytesFrom d.frames.key d.frames.frames (framesOf records)) :
    ∃ d', d.run Mailbox.receiver source contact = (.ok (), d') ∧
      d'.mailbox = d.mailbox.setConversation contact (c.receiveAll records) ∧
      d'.count = d.count + records.length := by
  induction records generalizing d c with
  | nil =>
      have inRange : d.frames.frames ≤ Frame.maxNumber := by
        simp only [framesOf, Frame.ofRecords, List.map_nil, List.nil_append, List.length_singleton]
          at numbers
        omega
      have last : left d.frames.device =
          Frame.toBytes d.frames.key d.frames.frames [] true ++ [] := whole
      obtain ⟨device', opened, -⟩ := FrameReader.openNext_of_frame yields inRange
        (within ([], true) (by simp [framesOf])) limited last
      have answered := FrameReader.next_of_opened sound unfinished opened
      exact ⟨_, Delivery.run_of_end answered,
        (Mailbox.setConversation_of_conversation? found).symm, rfl⟩
  | cons record records ih =>
      have frames : framesOf (record :: records) = (record.encode, false) :: framesOf records := rfl
      rw [frames] at numbers within whole
      rw [List.length_cons] at numbers
      have short : record.encode.length + Frame.overhead ≤ d.frames.maxLength :=
        within (record.encode, false) (List.mem_cons_self ..)
      obtain ⟨device', opened, after⟩ :=
        FrameReader.openNext_of_frame yields (by omega) short limited whole
      have answered := FrameReader.next_of_opened sound unfinished opened
      have decoded : Record.decode record.encode = .ok record := by
        refine Record.decode_encode ?_
        simp only [Frame.maxLength] at limited
        simp only [UInt64.size]
        omega
      have taken := Mailbox.update_of_conversation? found fun c => ((), c.receive record)
      obtain ⟨d', rest, mailbox, count⟩ := ih
        (d := { mailbox := d.mailbox.setConversation contact (c.receive record),
                frames := d.frames.advanced device' false, count := d.count + 1 })
        (Mailbox.conversation?_setConversation_self ..) sound rfl
        (by simp only [FrameReader.advanced]; omega) within.tail limited after
      refine ⟨d', ?_, ?_, ?_⟩
      · rw [Delivery.run_of_record answered decoded taken]
        exact rest
      · rw [mailbox, Mailbox.setConversation_setConversation]
        rfl
      · simp only [count, List.length_cons]
        omega

/-- A session whose parts go well completes with the records that were delivered. -/
theorem Receiving.receive_of_parts {κ σ : Type} {recogniser : Recogniser κ}
    {receiver : RecordReceiver σ} {reader : ReadingEnd ρ} {s : Receiving κ σ ρ} {tag : Tag}
    {context : Context} {device : ρ} {after : κ} {frames : FrameReader ρ} {d : Delivery σ ρ}
    (unused : s.used = false) (read : Tag.read reader.source s.device = (.ok tag, device))
    (recognised : recogniser.recognise tag s.recogniser = (.ok (some context), after))
    (made : FrameReader.ofContext context device reader.maxFrameLength = .ok frames)
    (ran : Delivery.run receiver reader.source context.route.contact
      { mailbox := s.mailbox, frames } = (.ok (), d)) :
    ∃ device', s.receive recogniser receiver reader =
      (.ok (.completed context.route.contact d.count),
        { recogniser := after, mailbox := d.mailbox, device := device', used := true }) := by
  have identified : identify recogniser reader { s with used := true } =
      (.ok (some context), { s with recogniser := after, device, used := true }) := by
    simp only [identify, read, recognised]
  simp only [receive, unused, Bool.false_eq_true, if_false, identified, deliver, made, ran, release]
  exact ⟨_, rfl⟩

/-- A connection that carries records is received whole if its tag is recognised. -/
theorem Receiving.receive_of_recognised {reader : ReadingEnd ρ} (faithful : reader.Faithful left)
    {s : Receiving Roster Mailbox ρ} (unused : s.used = false) {route : Route} {secret : Secret}
    {role : Role} {stream : Nat} {tag : Tag} {after : Roster} {records : List Record}
    {c : Conversation} (tagged : Tag.make secret stream role.peer = .ok tag)
    (recognised : s.recogniser.recognise tag = (some { route, secret, stream, role }, after))
    (found : s.mailbox.conversation? route.contact = some c)
    (carries : Carries secret stream role.peer records (left s.device)) :
    ∃ s', s.receive Roster.recogniser Mailbox.receiver reader =
        (.ok (.completed route.contact records.length), s') ∧
      s'.mailbox = s.mailbox.setConversation route.contact (c.receiveAll records) ∧
      s'.recogniser = after := by
  obtain ⟨within, numbers, its, key, made, keyed, spelled⟩ := carries
  obtain rfl : its = tag := Except.ok.inj (made.symm.trans tagged)
  obtain ⟨device, read, rest⟩ := Tag.read_of_front faithful.yields spelled
  have answered : Roster.recogniser.recognise its s.recogniser =
      (.ok (some { route, secret, stream, role }), after) := by
    simp only [Roster.recogniser, recognised]
  have limit : Frame.effectiveLength reader.maxFrameLength = Frame.maxLength :=
    Nat.min_eq_right faithful.room
  have made : FrameReader.ofContext { route, secret, stream, role } device reader.maxFrameLength =
      .ok { device, key, maxLength := Frame.maxLength } :=
    (FrameReader.make_eq_ok_iff ..).mpr ⟨by rw [limit]; decide, key, keyed, by rw [limit]⟩
  obtain ⟨d, ran, mailbox, count⟩ := Delivery.run_of_frames faithful.yields
    (d := { mailbox := s.mailbox, frames := { device, key, maxLength := Frame.maxLength } })
    found rfl rfl (by simpa using numbers) within (Nat.le_refl _) rest
  obtain ⟨last, received⟩ := receive_of_parts unused read answered made ran
  simp only [count, Nat.zero_add] at received
  exact ⟨_, received, mailbox, rfl⟩

/-- A connection is left alone if its tag is not recognised. -/
theorem Receiving.receive_of_unrecognised {reader : ReadingEnd ρ} (faithful : reader.Faithful left)
    {s : Receiving Roster Mailbox ρ} (unused : s.used = false) {tag : Tag} {rest : Bytes}
    (front : left s.device = tag.toBytes ++ rest)
    (unrecognised : s.recogniser.recognise tag = (none, s.recogniser)) :
    ∃ s', s.receive Roster.recogniser Mailbox.receiver reader = (.ok .unrecognised, s') ∧
      s'.mailbox = s.mailbox ∧ s'.recogniser = s.recogniser := by
  obtain ⟨device, read, -⟩ := Tag.read_of_front faithful.yields front
  have identified : identify Roster.recogniser reader { s with used := true } =
      (.ok none, { s with device, used := true }) := by
    simp only [identify, read, Roster.recogniser, unrecognised]
  simp only [receive, unused, Bool.false_eq_true, if_false, identified]
  exact ⟨_, rfl, rfl, rfl⟩

end Session

namespace Party

variable {ρ : Type} {left : ρ → Bytes} {reader : ReadingEnd ρ} {p : Party} {device : ρ}
  {route : Route} {secret : Secret} {role : Role} {stream : Nat} {records : List Record}

theorem receive_of_expected (faithful : reader.Faithful left) {window window' : Window}
    {c : Conversation} (expects : p.roster.Expects route secret role window)
    (apart : ∀ {tag}, Tag.make secret stream role.peer = .ok tag → p.roster.Apart route tag)
    (found : p.mailbox.conversation? route.contact = some c)
    (carries : Session.Carries secret stream role.peer records (left device))
    (accepted : window.accept? stream = some window') :
    ∃ device', p.receive reader device = (.ok (.completed route.contact records.length), device',
      { mailbox := p.mailbox.setConversation route.contact (c.receiveAll records)
        roster := p.roster.withWindow route window' }) := by
  obtain ⟨tag, -, tagged, -, -⟩ := carries.spelled
  have recognised := expects.recognise tagged (apart tagged) accepted
  obtain ⟨s, received, mailbox, after⟩ := Session.Receiving.receive_of_recognised faithful
    (s := p.receiving device) rfl tagged recognised found carries
  refine ⟨s.device, ?_⟩
  simp only [receive, received, mailbox, after]
  rfl

theorem receive_of_unexpected (faithful : reader.Faithful left) {window : Window}
    (expects : p.roster.Expects route secret role window)
    (apart : ∀ {tag}, Tag.make secret stream role.peer = .ok tag → p.roster.Apart route tag)
    (carries : Session.Carries secret stream role.peer records (left device))
    (refused : window.accept? stream = none) :
    ∃ device', p.receive reader device = (.ok .unrecognised, device', p) := by
  obtain ⟨tag, key, tagged, -, spelled⟩ := carries.spelled
  obtain ⟨s, received, mailbox, roster⟩ := Session.Receiving.receive_of_unrecognised faithful
    (s := p.receiving device) rfl spelled (expects.refuse tagged (apart tagged) refused)
  refine ⟨s.device, ?_⟩
  simp only [receive, received, mailbox, roster]
  rfl

theorem receive_of_accepted (faithful : reader.Faithful left) {window window' : Window}
    {c : Conversation} (listens : p.roster.Listens route secret role window)
    (found : p.mailbox.conversation? route.contact = some c)
    (carries : Session.Carries secret stream role.peer records (left device))
    (accepted : window.accept? stream = some window') :
    ∃ device' p', p.receive reader device =
        (.ok (.completed route.contact records.length), device', p') ∧
      p'.mailbox = p.mailbox.setConversation route.contact (c.receiveAll records) ∧
      p'.roster.Listens route secret role window' ∧ p.roster.KeepsOthers route p'.roster := by
  obtain ⟨device', received⟩ := receive_of_expected faithful listens.entry
    (fun tagged _ _ found different => listens.apart tagged found different) found carries accepted
  exact ⟨device', _, received, rfl, listens.withWindow window', p.roster.keepsOthers_withWindow _ _⟩

theorem receive_of_refused (faithful : reader.Faithful left) {window : Window}
    (listens : p.roster.Listens route secret role window)
    (carries : Session.Carries secret stream role.peer records (left device))
    (refused : window.accept? stream = none) :
    ∃ device', p.receive reader device = (.ok .unrecognised, device', p) :=
  receive_of_unexpected faithful listens.entry
    (fun tagged _ _ found different => listens.apart tagged found different) carries refused

/-- An awaited connection that carries records is received whole, and the next one is awaited. -/
theorem receive_of_carries (faithful : reader.Faithful left) {c : Conversation}
    (awaits : p.roster.Awaits route secret role stream)
    (found : p.mailbox.conversation? route.contact = some c)
    (carries : Session.Carries secret stream role.peer records (left device)) :
    ∃ device' p', p.receive reader device =
        (.ok (.completed route.contact records.length), device', p') ∧
      p'.mailbox = p.mailbox.setConversation route.contact (c.receiveAll records) ∧
      p'.roster.Awaits route secret role (stream + 1) := by
  obtain ⟨size, some, listens⟩ := awaits.listens
  obtain ⟨device', p', received, mailbox, next, -⟩ :=
    receive_of_accepted faithful listens found carries (Window.accept?_fresh some stream)
  exact ⟨device', p', received, mailbox, next.awaits some⟩

end Party

end Courier
