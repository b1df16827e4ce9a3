import Courier.Proofs.Connection.Window
import Courier.Proofs.Session.Acknowledgement
import Courier.Proofs.Session.Gathering

/-! # Connections that are read in any order

The next connections of a route, as many as a window holds, may be read in any
order and any number of times. Each is read whole the first time and is not
recognised afterwards, and what is left of the recipient tells neither the order
nor the repeats.
-/

namespace Courier

open Session (ReceiveOutcome)

/-- A connection with the stream number that it was written under and the records that it
    carries. -/
structure Letter where
  stream : Nat
  bytes : Bytes
  records : List Record
  deriving DecidableEq

namespace Letter

/-- The connection was completed with some records, by someone on this side of the secret. -/
inductive Posted (secret : Secret) (sender : Role) : Letter → Prop where
  | sent {δ : Type} {writer : WritingEnd δ} {held : δ → Bytes} {route : Route} {p p' : Party}
      {device device' : δ} {c : Conversation} {stream length : Nat} {records : List Record}
      (faithful : writer.Faithful held) (empty : held device = [])
      (known : p.mailbox.conversation? route.contact = some c)
      (lane : c.lanes.find? route.transport = some { secret, next := stream })
      (side : c.role = sender)
      (completed : p.send route writer device =
        (.ok (.completed length records.length), device', p'))
      (some : records ≠ [])
      (carries : Session.Carries secret stream sender records (held device')) :
      Posted secret sender ⟨stream, held device', records⟩

theorem Posted.carries {secret : Secret} {sender : Role} {letter : Letter}
    (posted : letter.Posted secret sender) :
    Session.Carries secret letter.stream sender letter.records letter.bytes := by
  cases posted with
  | sent faithful empty known lane side completed some carries => exact carries

/-- Every connection that was completed with some records is such a letter. -/
theorem posted_of_send {δ : Type} {writer : WritingEnd δ} {held : δ → Bytes} {route : Route}
    {p p' : Party} {device device' : δ} {c : Conversation} {secret : Secret}
    {stream length count : Nat} (faithful : writer.Faithful held) (empty : held device = [])
    (known : p.mailbox.conversation? route.contact = some c)
    (lane : c.lanes.find? route.transport = some { secret, next := stream })
    (completed : p.send route writer device = (.ok (.completed length count), device', p'))
    (some : 0 < count) :
    ∃ records, records.length = count ∧
      Posted secret c.role ⟨stream, held device', records⟩ := by
  have sent := completed
  simp only [Party.send, Party.sending, Session.Sending.send] at sent
  rcases ran : Session.Sending.run Mailbox.source writer route { mailbox := p.mailbox, device }
    with ⟨result, s⟩
  rw [ran] at sent
  obtain ⟨rfl, rfl, rfl⟩ := sent
  cases Session.Sending.runs_of_run ran with
  | @completed context mailbox frames f asked made filled =>
      obtain ⟨its, itsLane, found, here, -, rfl, rfl⟩ := Mailbox.context_of_some asked
      obtain rfl := Option.some.inj (known.symm.trans found)
      obtain rfl := Option.some.inj (lane.symm.trans here)
      have taken_some : f.taken ≠ [] := List.ne_nil_of_length_pos some
      have carries := Session.Filling.carries_of_run faithful.keeps empty made filled taken_some
      rw [← faithful.released] at carries
      exact ⟨f.taken, rfl, .sent faithful empty known lane rfl completed taken_some carries⟩

/-- The letters of the lowest numbers that a window expects, none of which was accepted. Their
    batches have names of their own, and their updates versions of their own. -/
structure Series (window : Window) (letters : List Letter) : Prop where
  streams : letters.map (·.stream) = List.range' window.base letters.length
  fits : letters.length ≤ window.seen.length
  unread : ∀ letter ∈ letters, ¬ window.Accepted letter.stream
  batches : ((Record.batches (letters.flatMap (·.records))).map Batch.id).Nodup
  transports : (((letters.flatMap (·.records)).filterMap Record.transportUpdate?).map
    (·.version)).Nodup
  subscriptions : (((letters.flatMap (·.records)).filterMap Record.subscriptionUpdate?).map
    (·.version)).Nodup

namespace Series

variable {window : Window} {letters : List Letter} {letter other : Letter}

theorem stream_bounds (series : Series window letters) (member : letter ∈ letters) :
    window.base ≤ letter.stream ∧ letter.stream < window.base + window.seen.length := by
  have its : letter.stream ∈ letters.map (·.stream) := List.mem_map_of_mem member
  rw [series.streams, List.mem_range'_1] at its
  have fits := series.fits
  omega

/-- The letters have numbers of their own. -/
theorem nodup_streams (series : Series window letters) : (letters.map (·.stream)).Nodup := by
  rw [series.streams]
  exact List.nodup_range'

/-- The number at the base of the window is open, because it is that of the first letter. -/
theorem settled (series : Series window letters) (some : letters ≠ []) : window.Settled := by
  have positive := List.length_pos_iff.mpr some
  have first : window.base ∈ letters.map (·.stream) := by
    rw [series.streams, List.mem_range'_1]
    omega
  obtain ⟨letter, member, stream⟩ := List.mem_map.mp first
  have unread := series.unread letter member
  have room : 0 < window.seen.length := Nat.lt_of_lt_of_le positive series.fits
  rw [stream] at unread
  rw [Window.Settled, List.getElem?_eq_getElem room, Option.some.injEq, Bool.eq_false_iff]
  intro marked
  refine unread (.inr ?_)
  rw [Nat.sub_self, List.getElem?_eq_getElem room, marked]

end Series

/-- What comes of reading letters in this order, when some were read before: each is read whole
    once. -/
def outcomes (contact : ContactId) :
    (read order : List Letter) → List (Except SessionFault ReceiveOutcome)
  | _, [] => []
  | read, letter :: order =>
      if letter ∈ read then
        .ok .unrecognised :: outcomes contact read order
      else
        .ok (.completed contact letter.records.length) :: outcomes contact (read ++ [letter]) order

/-- Letters that are all different are each read whole. -/
theorem outcomes_of_nodup (contact : ContactId) {read order : List Letter}
    (distinct : (read ++ order).Nodup) :
    outcomes contact read order =
      order.map fun letter => .ok (.completed contact letter.records.length) := by
  induction order generalizing read with
  | nil => rfl
  | cons letter order ih =>
      have new : letter ∉ read := fun member =>
        List.disjoint_of_nodup_append distinct member List.mem_cons_self
      rw [List.append_cons] at distinct
      rw [outcomes, if_neg new, ih distinct, List.map_cons]

end Letter

namespace Party

/-- Letters are read one after the other, each at an end of its own. -/
inductive Reads : Party → List Letter → List (Except SessionFault ReceiveOutcome) → Party → Prop
    where
  | nil (p : Party) : Reads p [] [] p
  | cons {ρ : Type} {reader : ReadingEnd ρ} {left : ρ → Bytes} {device device' : ρ}
      {p p' last : Party} {letter : Letter} {order : List Letter}
      {result : Except SessionFault ReceiveOutcome}
      {results : List (Except SessionFault ReceiveOutcome)} (faithful : reader.Faithful left)
      (whole : left device = letter.bytes)
      (received : p.receive reader device = (result, device', p'))
      (rest : Reads p' order results last) : Reads p (letter :: order) (result :: results) last

/-- Letters can be read in any order. -/
theorem exists_reads (p : Party) (order : List Letter) :
    ∃ results last, p.Reads order results last := by
  induction order generalizing p with
  | nil => exact ⟨[], p, .nil p⟩
  | cons letter order ih =>
      obtain ⟨results, last, rest⟩ :=
        ih (p.receive (Memory.readingEnd {}) { rest := letter.bytes }).2.2
      exact ⟨_, last, .cons (Memory.readingEnd_faithful Memory.ReadLimits.harmless_default) rfl rfl
        rest⟩

/-- What has become of a party that has read these letters, each of them once. -/
structure HasRead (start : Party) (route : Route) (c : Conversation) (window : Window)
    (read : List Letter) (p : Party) : Prop where
  mailbox : p.mailbox = start.mailbox.setConversation route.contact
    (c.receiveAll (read.flatMap (·.records)))
  roster : ∃ w, p.roster = start.roster.withWindow route w ∧
    w.Holds window.seen.length fun n => window.Accepted n ∨ n ∈ read.map (·.stream)

section

variable {start p p' last : Party} {route : Route} {secret : Secret} {role : Role}
  {window : Window} {c : Conversation} {letters read order : List Letter} {letter : Letter}
  {results : List (Except SessionFault ReceiveOutcome)}

theorem HasRead.begins (expects : start.roster.Expects route secret role window)
    (known : start.mailbox.conversation? route.contact = some c) (settled : window.Settled) :
    HasRead start route c window [] start where
  mailbox := (Mailbox.setConversation_of_conversation? known).symm
  roster := by
    obtain ⟨peerTagKey, peer, found⟩ := expects
    refine ⟨window, ?_, rfl, settled, by simp⟩
    rw [Roster.withWindow_of_find? found, Table.insert_of_find? found]

/-- A letter that was not read before is read whole. -/
theorem HasRead.accept (hasRead : HasRead start route c window read p)
    (expects : start.roster.Expects route secret role window)
    (series : Letter.Series window letters) (within : ∀ letter ∈ read, letter ∈ letters)
    (member : letter ∈ letters) (new : letter ∉ read)
    (carries : Session.Carries secret letter.stream role.peer letter.records letter.bytes)
    (apart : ∀ {tag}, Tag.make secret letter.stream role.peer = .ok tag →
      start.roster.Apart route tag)
    {ρ : Type} {reader : ReadingEnd ρ} {left : ρ → Bytes} {device : ρ}
    (faithful : reader.Faithful left) (whole : left device = letter.bytes) :
    ∃ device' p', p.receive reader device =
        (.ok (.completed route.contact letter.records.length), device', p') ∧
      HasRead start route c window (read ++ [letter]) p' := by
  obtain ⟨mailbox, w, roster, holds⟩ := hasRead
  have unread : ¬ (window.Accepted letter.stream ∨ letter.stream ∈ read.map (·.stream)) := by
    rintro (before | now)
    · exact series.unread letter member before
    · obtain ⟨other, earlier, same⟩ := List.mem_map.mp now
      obtain rfl := List.inj_on_of_nodup_map series.nodup_streams (within other earlier) member same
      exact new earlier
  have near : Window.Near window.seen.length
      (fun n => window.Accepted n ∨ n ∈ read.map (·.stream)) letter.stream := by
    intro earlier below open_
    have atLeast : ¬ earlier < window.base := fun behind => open_ (.inl (.inl behind))
    have bounds := series.stream_bounds member
    omega
  obtain ⟨w', accepted, holds'⟩ := holds.accept unread near
  have expects' : p.roster.Expects route secret role w := roster ▸ expects.withWindow w
  have known : p.mailbox.conversation? route.contact =
      some (c.receiveAll (read.flatMap (·.records))) := by
    rw [mailbox, Mailbox.conversation?_setConversation_self]
  obtain ⟨device', received⟩ := receive_of_expected faithful expects'
    (fun tagged => roster ▸ (apart tagged).withWindow w) known (whole.symm ▸ carries) accepted
  refine ⟨device', _, received, ?_, w', ?_, ?_⟩
  · rw [mailbox, Mailbox.setConversation_setConversation, List.flatMap_append,
      List.flatMap_singleton, Conversation.receiveAll, Conversation.receiveAll,
      Conversation.receiveAll, List.foldl_append]
  · rw [roster, Roster.withWindow_withWindow]
  · refine holds'.congr fun n => ?_
    simp [or_assoc]

/-- A letter that was read before is not recognised. -/
theorem HasRead.refuse (hasRead : HasRead start route c window read p)
    (expects : start.roster.Expects route secret role window) (again : letter ∈ read)
    (carries : Session.Carries secret letter.stream role.peer letter.records letter.bytes)
    (apart : ∀ {tag}, Tag.make secret letter.stream role.peer = .ok tag →
      start.roster.Apart route tag)
    {ρ : Type} {reader : ReadingEnd ρ} {left : ρ → Bytes} {device : ρ}
    (faithful : reader.Faithful left) (whole : left device = letter.bytes) :
    ∃ device', p.receive reader device = (.ok .unrecognised, device', p) := by
  obtain ⟨-, w, roster, holds⟩ := hasRead
  have expects' : p.roster.Expects route secret role w := roster ▸ expects.withWindow w
  have refused := holds.refuse (.inl (.inr (List.mem_map_of_mem again)))
  exact receive_of_unexpected faithful expects' (fun tagged => roster ▸ (apart tagged).withWindow w)
    (whole.symm ▸ carries) refused

/-- Reading more letters adds those that are new, each of them once. -/
theorem HasRead.reads (hasRead : HasRead start route c window read p)
    (expects : start.roster.Expects route secret role window)
    (series : Letter.Series window letters) (within : ∀ letter ∈ read, letter ∈ letters)
    (distinct : read.Nodup) (known : ∀ letter ∈ order, letter ∈ letters)
    (posted : ∀ letter ∈ letters, letter.Posted secret role.peer)
    (apart : ∀ letter ∈ letters, ∀ {tag}, Tag.make secret letter.stream role.peer = .ok tag →
      start.roster.Apart route tag)
    (reads : p.Reads order results last) :
    results = Letter.outcomes route.contact read order ∧
      ∃ all, HasRead start route c window all last ∧ all.Nodup ∧
        ∀ letter, letter ∈ all ↔ letter ∈ read ∨ letter ∈ order := by
  induction reads generalizing read with
  | nil => exact ⟨rfl, read, hasRead, distinct, by simp⟩
  | @cons ρ reader left device device' p p' last letter order result results faithful whole received
      rest ih =>
      obtain ⟨member, later⟩ := List.forall_mem_cons.mp known
      have carries := (posted letter member).carries
      by_cases again : letter ∈ read
      · obtain ⟨_, refused⟩ := hasRead.refuse expects again carries (apart letter member) faithful
          whole
        rw [refused] at received
        obtain ⟨rfl, rfl, rfl⟩ := received
        obtain ⟨outcomes, all, hasAll, once, members⟩ := ih hasRead within distinct later
        refine ⟨by rw [Letter.outcomes, if_pos again, outcomes], all, hasAll, once, fun other => ?_⟩
        rw [members, List.mem_cons]
        have same : other = letter → other ∈ read := fun same => same ▸ again
        tauto
      · obtain ⟨_, _, accepted, next⟩ := hasRead.accept expects series within member again carries
          (apart letter member) faithful whole
        rw [accepted] at received
        obtain ⟨rfl, rfl, rfl⟩ := received
        have within' : ∀ other ∈ read ++ [letter], other ∈ letters := by
          simpa [or_imp, forall_and] using ⟨within, member⟩
        have distinct' : (read ++ [letter]).Nodup :=
          distinct.append (List.nodup_singleton _) (List.disjoint_singleton.mpr again)
        obtain ⟨outcomes, all, hasAll, once, members⟩ := ih next within' distinct' later
        refine ⟨by rw [Letter.outcomes, if_neg again, outcomes], all, hasAll, once, fun other => ?_⟩
        rw [members, List.mem_append, List.mem_singleton, List.mem_cons, or_assoc]

/-- All letters have been read, in some order, and the window has accepted their numbers. -/
theorem hasRead_all (expects : start.roster.Expects route secret role window)
    (known : start.mailbox.conversation? route.contact = some c) (settled : window.Settled)
    (series : Letter.Series window letters)
    (posted : ∀ letter ∈ letters, letter.Posted secret role.peer)
    (apart : ∀ letter ∈ letters, ∀ {tag}, Tag.make secret letter.stream role.peer = .ok tag →
      start.roster.Apart route tag)
    (whole : ∀ letter, letter ∈ order ↔ letter ∈ letters) (reads : start.Reads order results last) :
    results = Letter.outcomes route.contact [] order ∧
      ∃ all, all.Perm letters ∧ HasRead start route c window all last := by
  obtain ⟨outcomes, all, hasRead, once, members⟩ := (HasRead.begins expects known settled).reads
    expects series (by simp) .nil (fun letter => (whole letter).mp) posted apart reads
  refine ⟨outcomes, all, ?_, hasRead⟩
  refine (List.perm_ext_iff_of_nodup once (.of_map _ series.nodup_streams)).mpr fun letter => ?_
  rw [members, whole, List.mem_nil_iff, false_or]

/-- Read in any two orders, the letters leave the same state, up to the order of lists. -/
theorem sameUpToOrder_of_perm (series : Letter.Series window letters) (perm : read.Perm letters)
    (perm' : order.Perm letters) (c : Conversation) :
    (c.receiveAll (read.flatMap (·.records))).SameUpToOrder
      (c.receiveAll (order.flatMap (·.records))) := by
  have records : (read.flatMap (·.records)).Perm (letters.flatMap (·.records)) :=
    perm.flatMap_right _
  have records' : (order.flatMap (·.records)).Perm (letters.flatMap (·.records)) :=
    perm'.flatMap_right _
  have gathers : ∀ {read : List Record}, read.Perm (letters.flatMap (·.records)) →
      c.Gathers read (c.receiveAll read) := by
    intro read perm
    have batches : (Record.batches read).Perm (Record.batches (letters.flatMap (·.records))) :=
      (perm.filterMap _).map _
    exact Conversation.gathers_receiveAll c ((batches.map _).nodup_iff.mpr series.batches)
  exact (gathers records).sameUpToOrder (gathers records') (records'.trans records.symm)
    (((records.filterMap _).map _).nodup_iff.mpr series.transports)
    (((records.filterMap _).map _).nodup_iff.mpr series.subscriptions)

end

end Party

/-- The next letters of a route are read in two orders, with any repeats. Both times each letter is
    read whole once and not recognised afterwards, and both times the recipient ends in the same
    state, up to the order of lists. -/
theorem Party.same_of_reads {start first second : Party} {route : Route} {secret : Secret}
    {role : Role} {window : Window} {c : Conversation} {letters order order' : List Letter}
    {results results' : List (Except SessionFault ReceiveOutcome)}
    (expects : start.roster.Expects route secret role window)
    (known : start.mailbox.conversation? route.contact = some c)
    (series : Letter.Series window letters)
    (posted : ∀ letter ∈ letters, letter.Posted secret role.peer)
    (apart : ∀ letter ∈ letters, ∀ {tag}, Tag.make secret letter.stream role.peer = .ok tag →
      start.roster.Apart route tag)
    (whole : ∀ letter, letter ∈ order ↔ letter ∈ letters)
    (whole' : ∀ letter, letter ∈ order' ↔ letter ∈ letters)
    (reads : start.Reads order results first) (reads' : start.Reads order' results' second) :
    results = Letter.outcomes route.contact [] order ∧
      results' = Letter.outcomes route.contact [] order' ∧
      ∃ c₁ c₂, first.mailbox = start.mailbox.setConversation route.contact c₁ ∧
        second.mailbox = start.mailbox.setConversation route.contact c₂ ∧
        (c.receiveAll (letters.flatMap (·.records))).SameUpToOrder c₁ ∧ c₁.SameUpToOrder c₂ ∧
        Newest (·.version) c.remoteTransports
          ((letters.flatMap (·.records)).filterMap Record.transportUpdate?) c₁.remoteTransports ∧
        Newest (·.version) c.remoteSubscriptions
          ((letters.flatMap (·.records)).filterMap Record.subscriptionUpdate?)
          c₁.remoteSubscriptions ∧
        first.roster = second.roster := by
  obtain ⟨outcomes, outcomes', read, read', perm, perm', mailbox, mailbox', roster⟩ :
      results = Letter.outcomes route.contact [] order ∧
        results' = Letter.outcomes route.contact [] order' ∧
        ∃ read read' : List Letter, read.Perm letters ∧ read'.Perm letters ∧
          first.mailbox = start.mailbox.setConversation route.contact
            (c.receiveAll (read.flatMap (·.records))) ∧
          second.mailbox = start.mailbox.setConversation route.contact
            (c.receiveAll (read'.flatMap (·.records))) ∧
          first.roster = second.roster := by
    rcases eq_or_ne letters [] with rfl | some
    · -- nothing is read, and the window need not have room for anything
      obtain rfl : order = [] := List.eq_nil_iff_forall_not_mem.mpr fun letter member =>
        List.not_mem_nil ((whole letter).mp member)
      obtain rfl : order' = [] := List.eq_nil_iff_forall_not_mem.mpr fun letter member =>
        List.not_mem_nil ((whole' letter).mp member)
      cases reads
      cases reads'
      have same := Mailbox.setConversation_of_conversation? known
      exact ⟨rfl, rfl, [], [], .nil, .nil, same.symm, same.symm, rfl⟩
    · have settled := series.settled some
      obtain ⟨outcomes, read, perm, mailbox, w, roster, holds⟩ :=
        hasRead_all expects known settled series posted apart whole reads
      obtain ⟨outcomes', read', perm', mailbox', w', roster', holds'⟩ :=
        hasRead_all expects known settled series posted apart whole' reads'
      have numbers : ∀ n, n ∈ read'.map (·.stream) ↔ n ∈ read.map (·.stream) := fun n =>
        ((perm'.trans perm.symm).map _).mem_iff
      simp only [numbers] at holds'
      exact ⟨outcomes, outcomes', read, read', perm, perm', mailbox, mailbox',
        by rw [roster, roster', holds.unique holds']⟩
  have inOrder := sameUpToOrder_of_perm series (.refl letters) perm c
  have gathers := Conversation.gathers_receiveAll c series.batches
  refine ⟨outcomes, outcomes', _, _, mailbox, mailbox', inOrder,
    sameUpToOrder_of_perm series perm perm' c, ?_, ?_, roster⟩
  · rw [inOrder.remoteTransports]
    exact gathers.transports
  · rw [inOrder.remoteSubscriptions]
    exact gathers.subscriptions

section

open Exchange (conversing begins_conversing)

/-- A message that is queued and goes out as a batch of its own. -/
private theorem posted_of_queued {writer : WritingEnd Memory.Outbound} {route : Route}
    {p p' : Party} {device : Memory.Outbound} {c : Conversation} {secret : Secret}
    {stream length : Nat} {message : Bytes} {before : List Batch}
    (faithful : writer.Faithful Memory.Outbound.bytes)
    (known : p.mailbox.conversation? route.contact = some c)
    (lane : c.lanes.find? route.transport = some { secret, next := stream })
    (once : c.acksOwed.Nodup) (waiting : c.outstanding.map (·.2) = before)
    (sent : Party.send { p with mailbox := (p.mailbox.queue route.contact message).2 } route
      writer {} = (.ok (.completed length 1), device, p'))
    (outstanding : (p'.mailbox.conversation? route.contact).map (·.outstanding.map (·.2)) =
      some (before ++ [⟨[message]⟩])) :
    Letter.Posted secret c.role ⟨stream, device.bytes, [.batch ⟨[message]⟩]⟩ ∧
      ∃ c', p'.mailbox.conversation? route.contact = some c' ∧ c'.role = c.role ∧
        c'.lanes.find? route.transport = some { secret, next := stream + 1 } ∧
        c'.acksOwed.Nodup ∧ c'.outstanding.map (·.2) = before ++ [⟨[message]⟩] := by
  let ready : Party := { p with mailbox := (p.mailbox.queue route.contact message).2 }
  have queued : ready.mailbox.conversation? route.contact =
      some { c with queued := c.queued ++ [message] } := Mailbox.conversation?_queue known message
  have single : 0 < [Batch.mk [message]].length := Nat.one_pos
  have empty : ({} : Memory.Outbound).bytes = [] := rfl
  subst waiting
  obtain ⟨c', after, -, hands, carries⟩ :=
    Exchange.batches_sent queued lane once faithful single sent outstanding
  refine ⟨.sent faithful empty queued lane rfl sent (List.cons_ne_nil _ _) carries, c', after,
    hands.role, ?_, hands.distinct, ?_⟩
  · rw [hands.lanes]
    exact Table.find?_insert_self ..
  · rw [hands.outstanding, List.map_append]
    rfl

/-- Two messages go out one after the other. -/
private theorem exists_posted_in_turn {writer : WritingEnd Memory.Outbound} {route : Route}
    {p p' last : Party} {device device' : Memory.Outbound} {c : Conversation} {secret : Secret}
    {stream : Nat} (message more : Bytes) (length length' : Nat)
    (faithful : writer.Faithful Memory.Outbound.bytes)
    (known : p.mailbox.conversation? route.contact = some c)
    (lane : c.lanes.find? route.transport = some { secret, next := stream })
    (once : c.acksOwed.Nodup) (none : c.outstanding = [])
    (sent : Party.send { p with mailbox := (p.mailbox.queue route.contact message).2 } route
      writer {} = (.ok (.completed length 1), device, p'))
    (outstanding : (p'.mailbox.conversation? route.contact).map (·.outstanding.map (·.2)) =
      some [⟨[message]⟩])
    (sent' : Party.send { p' with mailbox := (p'.mailbox.queue route.contact more).2 } route
      writer {} = (.ok (.completed length' 1), device', last))
    (outstanding' : (last.mailbox.conversation? route.contact).map (·.outstanding.map (·.2)) =
      some [⟨[message]⟩, ⟨[more]⟩]) :
    ∃ bytes bytes', Letter.Posted secret c.role ⟨stream, bytes, [.batch ⟨[message]⟩]⟩ ∧
      Letter.Posted secret c.role ⟨stream + 1, bytes', [.batch ⟨[more]⟩]⟩ := by
  obtain ⟨one, c', known', role, lane', once', waiting'⟩ :=
    posted_of_queued faithful known lane once (List.map_eq_nil_iff.mpr none) sent outstanding
  obtain ⟨two, -⟩ := posted_of_queued faithful known' lane' once' waiting' sent' outstanding'
  exact ⟨_, _, one, role ▸ two⟩

set_option maxRecDepth 100000 in
/-- One neighbour sends a message after the other, and the other neighbour waits for both. -/
private theorem exists_two_letters :
    ∃ secret bytes bytes' c,
      Letter.Posted secret .alice ⟨0, bytes, [.batch ⟨[[109]]⟩]⟩ ∧
      Letter.Posted secret .alice ⟨1, bytes', [.batch ⟨[[110]]⟩]⟩ ∧
      conversing.recipient.party.roster.Listens ⟨⟨1⟩, ⟨0⟩⟩ secret .bob
        (.fresh Window.defaultSize 0) ∧
      conversing.recipient.party.mailbox.conversation? ⟨1⟩ = some c := by
  obtain ⟨c, _, _, sender⟩ := begins_conversing.sender.stands
  obtain ⟨d, _, _, recipient⟩ := begins_conversing.recipient.stands
  have common : (⟨0⟩ : TransportIndex) ∈ Exchange.neighbours.transports :=
    List.mem_singleton_self _
  obtain ⟨secret, shared, lane⟩ := sender.lanes ⟨0⟩ common
  have none : c.outstanding = [] :=
    sender.outstanding_eq_nil (by rw [begins_conversing.sender.unwritten])
  have faithful := Memory.writingEnd_faithful {} 1000 Frame.maxLength
  have known : conversing.sender.party.mailbox.conversation? (Route.mk ⟨2⟩ ⟨0⟩).contact = some c :=
    sender.known
  obtain ⟨bytes, bytes', one, two⟩ := exists_posted_in_turn [109] [110] 108 108 faithful known lane
    sender.accounts.owedOnce none (eq_of_toOption (by decide +kernel)) (by decide +kernel)
    (eq_of_toOption (by decide +kernel)) (by decide +kernel)
  rw [sender.side] at one two
  have filled : conversing.recipient.party.mailbox.expectIncoming (.ofWindow Window.defaultSize) =
      (.ok (), conversing.recipient.party.roster) := eq_of_toOption (by decide +kernel)
  obtain ⟨its, derived, heard⟩ := recipient.lanes ⟨0⟩ common
  obtain rfl : secret = its := Except.ok.inj (shared.2.symm.trans derived.2)
  have reached : conversing.recipient.party.mailbox.lane? ⟨⟨1⟩, ⟨0⟩⟩ = some (d.role, { secret }) :=
    (Mailbox.lane?_eq_some_iff ..).mpr ⟨_, recipient.known, heard, rfl⟩
  rw [recipient.side] at reached
  exact ⟨secret, bytes, bytes', d, one, two, ⟨Mailbox.expects_of_expectIncoming filled reached,
    (recipient.listens derived).apart⟩, recipient.known⟩

/-- Two letters are read in reverse order and once more, and in order with a repeat of the first. -/
theorem Party.same_of_reads_repeated :
    let bob := conversing.recipient.party
    ∃ one two : Letter, one.records = [.batch ⟨[[109]]⟩] ∧ two.records = [.batch ⟨[[110]]⟩] ∧
      ∃ first second,
        bob.Reads [two, one, two]
          [.ok (.completed ⟨1⟩ 1), .ok (.completed ⟨1⟩ 1), .ok .unrecognised] first ∧
        bob.Reads [one, one, two]
          [.ok (.completed ⟨1⟩ 1), .ok .unrecognised, .ok (.completed ⟨1⟩ 1)] second ∧
        (first.mailbox.received ⟨1⟩).Perm (second.mailbox.received ⟨1⟩) ∧
        first.roster = second.roster := by
  intro bob
  obtain ⟨secret, bytes, bytes', c, written, written', listens, known⟩ := exists_two_letters
  let one : Letter := ⟨0, bytes, [.batch ⟨[[109]]⟩]⟩
  let two : Letter := ⟨1, bytes', [.batch ⟨[[110]]⟩]⟩
  have series : Letter.Series (.fresh Window.defaultSize 0) [one, two] := by
    constructor
    case streams => rfl
    case fits =>
      have room : 2 ≤ (Window.fresh Window.defaultSize 0).seen.length := by decide +kernel
      exact room
    case unread =>
      intro letter _
      rw [(Window.fresh_holds (by decide) 0).accepted_iff]
      exact Nat.not_lt_zero _
    case batches =>
      have names : [Batch.id ⟨[[109]]⟩, Batch.id ⟨[[110]]⟩].Nodup := by decide +kernel
      exact names
    case transports | subscriptions => exact .nil
  have posted : ∀ letter ∈ [one, two], letter.Posted secret Role.bob.peer := by
    simpa using ⟨written, written'⟩
  have apart : ∀ letter ∈ [one, two], ∀ {tag}, Tag.make secret letter.stream Role.bob.peer =
      .ok tag → bob.roster.Apart ⟨⟨1⟩, ⟨0⟩⟩ tag := by
    intro letter _ tag made other its found
    exact listens.apart made found
  obtain ⟨results, first, reads⟩ := bob.exists_reads [two, one, two]
  obtain ⟨results', second, reads'⟩ := bob.exists_reads [one, one, two]
  obtain ⟨rfl, rfl, c₁, c₂, held, held', -, same, -, -, roster⟩ :=
    Party.same_of_reads listens.entry known series posted apart (by simp [or_comm]) (by simp) reads
      reads'
  have ne : one ≠ two := by simp [one, two]
  have single : one.records.length = 1 := rfl
  have single' : two.records.length = 1 := rfl
  refine ⟨one, two, rfl, rfl, first, second, ?_, ?_, ?_, roster⟩
  · simpa [Letter.outcomes, ne, ne.symm, single, single'] using reads
  · simpa [Letter.outcomes, ne, ne.symm, single, single'] using reads'
  · rw [Mailbox.received, Mailbox.received, held, held',
      Mailbox.conversation?_setConversation_self, Mailbox.conversation?_setConversation_self]
    exact same.received.symm

end

end Courier
