import Courier.Proofs.Mailbox.Conservation
import Courier.Proofs.Session.Completion

/-! # Two connections that give their messages back

Two connections to one contact are filled at the same time, each taking from the
front of the queue what the other has left. When both fail, each puts what it
took back to the front, all at once. So what the last one gives back stands
first, whichever of the two took the older messages. The queue is as it was if
the last one had taken its messages before those of the other one.
-/

namespace Courier

namespace Conversation

theorem Takes.queued {transports : Option TransportUpdate}
    {subscriptions : Option SubscriptionUpdate} {c c' : Conversation} {record : Record}
    (takes : Takes transports subscriptions c record c') :
    c.queued = record.messages ++ c'.queued := by
  cases takes with
  | transportUpdate | subscriptionUpdate | ack => rfl
  | batch split => exact split

theorem queued_restoreAll (records : List Record) (c : Conversation) :
    (c.restoreAll records).queued = records.flatMap Record.messages ++ c.queued := by
  induction records with
  | nil => rfl
  | cons record records ih =>
      have one : ∀ c : Conversation, (c.restore record).queued = record.messages ++ c.queued := by
        intro c
        cases record with
        | transportUpdate | subscriptionUpdate => simp [Record.messages]
        | ack | batch => rfl
      calc (c.restoreAll (record :: records)).queued
        _ = record.messages ++ (c.restoreAll records).queued := one _
        _ = (record :: records).flatMap Record.messages ++ c.queued := by
          rw [ih, List.flatMap_cons, List.append_assoc]

end Conversation

/-- A mailbox, and what two connections to one contact have taken from it. -/
structure Tandem where
  mailbox : Mailbox
  /-- The records that are not given back, in the order of taking, each with its connection. -/
  held : List (Bool × Record) := []
  /-- Messages queued for the contact meanwhile. -/
  queued : List Bytes := []

namespace Tandem

/-- What one of the connections holds. -/
def of (t : Tandem) (connection : Bool) : List Record :=
  (t.held.filter (·.1 = connection)).map (·.2)

/-- The messages that one of the connections holds. -/
def messagesOf (t : Tandem) (connection : Bool) : List Bytes :=
  (t.of connection).flatMap Record.messages

/-- The messages that both hold, in the order of taking. -/
def messages (t : Tandem) : List Bytes :=
  t.held.flatMap (·.2.messages)

variable (contact : ContactId)

/-- One thing that happens while some of the connections are still filled. -/
inductive Step (filled : Bool → Prop) : Tandem → Tandem → Prop where
  | take {t : Tandem} (connection : Bool) {limit : Nat} {record : Record} {m : Mailbox}
      (still : filled connection)
      (asked : Session.Filling.Asks Mailbox.source contact limit t.mailbox (.ok (some record)) m) :
      Step filled t { t with mailbox := m, held := t.held ++ [(connection, record)] }
  | queue {t : Tandem} {message : Bytes} {m : Mailbox}
      (queued : t.mailbox.queue contact message = (.ok (), m)) :
      Step filled t { t with mailbox := m, queued := t.queued ++ [message] }
  | receive {t : Tandem} {record : Record} {m : Mailbox}
      (received : t.mailbox.receive contact record = (.ok (), m)) :
      Step filled t { t with mailbox := m }
  | besides {t : Tandem} (operation : Mailbox.Operation)
      (spares : operation.spares contact = true) :
      Step filled t { t with mailbox := operation.apply t.mailbox }

/-- Any number of steps. -/
abbrev Run (filled : Bool → Prop) : Tandem → Tandem → Prop :=
  Relation.ReflTransGen (Step contact filled)

/-- A connection fails and gives back all that it holds at once. -/
inductive GivesBack (connection : Bool) (t : Tandem) : Tandem → Prop where
  | all {m : Mailbox} (restored : t.mailbox.restore contact (t.of connection) = (.ok (), m)) :
      GivesBack connection t
        { t with mailbox := m, held := t.held.filter (·.1 ≠ connection) }

variable {contact} {filled : Bool → Prop} {t t' : Tandem} {c : Conversation} {connection : Bool}

/-- What was queued is what was taken and what is left, in this order. -/
theorem queued_of_run (known : t.mailbox.conversation? contact = some c)
    (run : Run contact filled t t') :
    ∃ c' taken queued, t'.mailbox.conversation? contact = some c' ∧ t'.held = t.held ++ taken ∧
      (∀ entry ∈ taken, filled entry.1) ∧ t'.queued = t.queued ++ queued ∧
      c.queued ++ queued = taken.flatMap (·.2.messages) ++ c'.queued := by
  induction run with
  | refl => exact ⟨c, [], [], known, by simp, by simp, by simp, by simp⟩
  | tail _ step ih =>
      obtain ⟨c', taken, queued, here, held, still, since, split⟩ := ih
      cases step with
      | @take which limit record m open_ asked =>
          rcases Mailbox.asks_cases here asked with ⟨none, -⟩ | ⟨other, c'', same, takes, rfl⟩
          · cases none
          obtain rfl := Option.some.inj (Except.ok.inj same)
          refine ⟨c'', taken ++ [(which, record)], queued,
            Mailbox.conversation?_setConversation_self .., ?_, ?_, since, ?_⟩
          · rw [held, List.append_assoc]
          · intro entry member
            rcases List.mem_append.mp member with before | new
            · exact still entry before
            · rw [List.mem_singleton.mp new]
              exact open_
          · rw [split, takes.queued]
            simp
      | @queue message m asked =>
          rw [Mailbox.queue, Mailbox.update_of_conversation? here] at asked
          obtain ⟨-, rfl⟩ := Prod.mk.inj asked
          refine ⟨_, taken, queued ++ [message], Mailbox.conversation?_setConversation_self ..,
            held, still, ?_, ?_⟩
          · rw [since, List.append_assoc]
          · rw [← List.append_assoc, split, List.append_assoc]
      | @receive record m received =>
          rw [Mailbox.receive, Mailbox.update_of_conversation? here] at received
          obtain ⟨-, rfl⟩ := Prod.mk.inj received
          refine ⟨_, taken, queued, Mailbox.conversation?_setConversation_self .., held, still,
            since, ?_⟩
          rw [c'.queued_receive record, split]
      | besides operation spares =>
          obtain ⟨c'', after, same, -⟩ := Mailbox.spared_of_spares spares here
          exact ⟨c'', taken, queued, after, held, still, since, by rw [same, split]⟩

/-- What is given back goes to the front. -/
theorem GivesBack.queued (gives : t.GivesBack contact connection t')
    (known : t.mailbox.conversation? contact = some c) :
    ∃ c', t'.mailbox.conversation? contact = some c' ∧
      c'.queued = t.messagesOf connection ++ c.queued := by
  cases gives with
  | all restored =>
      rw [Mailbox.restore, Mailbox.update_of_conversation? known] at restored
      obtain ⟨-, rfl⟩ := Prod.mk.inj restored
      exact ⟨_, Mailbox.conversation?_setConversation_self .., c.queued_restoreAll _⟩

/-- After one connection gave back all it had, the other one still holds what it held. -/
theorem GivesBack.of_not (gives : t.GivesBack contact connection t') :
    t'.of (!connection) = t.of (!connection) ∧ t'.queued = t.queued := by
  cases gives with
  | all =>
      refine ⟨?_, rfl⟩
      simp only [of, List.filter_filter]
      congr 2
      funext entry
      cases entry.1 <;> cases connection <;> rfl

theorem of_eq_append {taken : List (Bool × Record)} (more : t'.held = t.held ++ taken)
    (all : ∀ entry ∈ taken, entry.1 = connection) :
    t'.of connection = t.of connection ++ taken.map (·.2) := by
  have whole : taken.filter (·.1 = connection) = taken :=
    List.filter_eq_self.mpr fun entry member => decide_eq_true (all entry member)
  rw [of, of, more, List.filter_append, List.map_append, whole]

/-- When one connection gives its messages back and then the other one, those of the last one stand
    in front of those of the first one. The queue is as it was before, with what was queued
    meanwhile at its end, exactly if the messages were taken in this order; so it is if the last one
    had taken its messages before the first one took any. -/
theorem queued_of_both_given_back {m : Mailbox} {first : Bool} {filling failed last ended : Tandem}
    (known : m.conversation? contact = some c)
    (together : Run contact (fun _ => True) { mailbox := m } filling)
    (firstFails : filling.GivesBack contact first failed)
    (alone : Run contact (· = !first) failed last)
    (lastFails : last.GivesBack contact (!first) ended) :
    ∃ c' rest, ended.mailbox.conversation? contact = some c' ∧
      c.queued ++ ended.queued = filling.messages ++ rest ∧
      c'.queued = filling.messagesOf (!first) ++ filling.messagesOf first ++ rest ∧
      (c'.queued = c.queued ++ ended.queued ↔
        filling.messagesOf (!first) ++ filling.messagesOf first = filling.messages) ∧
      ∀ before after, filling.held = before ++ after → (∀ entry ∈ before, entry.1 = !first) →
        (∀ entry ∈ after, entry.1 = first) → c'.queued = c.queued ++ ended.queued := by
  obtain ⟨c₁, taken, queued, here, held, -, since, split⟩ := queued_of_run known together
  obtain ⟨c₂, here, front⟩ := firstFails.queued here
  obtain ⟨kept, unchanged⟩ := firstFails.of_not
  obtain ⟨c₃, more, queued', here, also, others, since', split'⟩ := queued_of_run here alone
  obtain ⟨c', here, back⟩ := lastFails.queued here
  have messages : filling.messages = taken.flatMap (·.2.messages) := by
    rw [Tandem.messages, held]
    rfl
  have total : ended.queued = queued ++ queued' := by
    rw [lastFails.of_not.2, since', unchanged, since]
    rfl
  have whole : c.queued ++ ended.queued = filling.messages ++ (c₁.queued ++ queued') := by
    rw [total, ← List.append_assoc, split, messages, List.append_assoc]
  have after : c'.queued = filling.messagesOf (!first) ++ filling.messagesOf first ++
      (c₁.queued ++ queued') := by
    have held' : last.messagesOf (!first) =
        filling.messagesOf (!first) ++ more.flatMap (·.2.messages) := by
      rw [messagesOf, of_eq_append also others, kept, List.flatMap_append, messagesOf,
        List.flatMap_map]
    rw [back, held', List.append_assoc, ← split', front]
    simp only [List.append_assoc]
  have same_iff : c'.queued = c.queued ++ ended.queued ↔
      filling.messagesOf (!first) ++ filling.messagesOf first = filling.messages := by
    rw [after, whole, List.append_cancel_right_eq]
  refine ⟨c', c₁.queued ++ queued', here, whole, after, same_iff, ?_⟩
  intro before later ordered front back
  have beforeNone : before.filter (·.1 = first) = [] := by
    refine List.filter_eq_nil_iff.mpr fun entry member => ?_
    simp [front entry member]
  have laterNone : later.filter (·.1 = !first) = [] := by
    refine List.filter_eq_nil_iff.mpr fun entry member => ?_
    simp [back entry member]
  have beforeAll : before.filter (·.1 = !first) = before :=
    List.filter_eq_self.mpr fun entry member => decide_eq_true (front entry member)
  have laterAll : later.filter (·.1 = first) = later :=
    List.filter_eq_self.mpr fun entry member => decide_eq_true (back entry member)
  refine same_iff.mpr ?_
  simp only [messagesOf, of, Tandem.messages, ordered, List.filter_append, beforeNone, laterNone,
    beforeAll, laterAll, List.append_nil, List.nil_append, List.flatMap_map, List.flatMap_append]

/-- A connection takes the first of two messages and another one the second. The first connection
    fails, and then the other one. -/
private theorem run_crossing :
    ∃ m c filling failed ended c', m.conversation? ⟨2⟩ = some c ∧ c.queued = [[109], [110]] ∧
      Run ⟨2⟩ (fun _ => True) { mailbox := m } filling ∧
      filling.held = [(false, .batch ⟨[[109]]⟩), (true, .batch ⟨[[110]]⟩)] ∧
      filling.GivesBack ⟨2⟩ false failed ∧ failed.GivesBack ⟨2⟩ true ended ∧ ended.queued = [] ∧
      ended.mailbox.conversation? ⟨2⟩ = some c' ∧ c'.queued = [[110], [109]] := by
  let added := ({} : Mailbox).addContact ⟨2⟩ (.repeated 7) .alice []
  let before := (added.2.queue ⟨2⟩ [109]).2.queue ⟨2⟩ [110]
  let older := before.2.takeBatch ⟨2⟩ 20
  let newer := older.2.takeBatch ⟨2⟩ 20
  let olderBack := newer.2.restore ⟨2⟩ [.batch ⟨[[109]]⟩]
  let newerBack := olderBack.2.restore ⟨2⟩ [.batch ⟨[[110]]⟩]
  have first : older = (.ok (some ⟨[[109]]⟩), older.2) := eq_of_toOption (by decide +kernel)
  have second : newer = (.ok (some ⟨[[110]]⟩), newer.2) := eq_of_toOption (by decide +kernel)
  have third : olderBack = (.ok (), olderBack.2) := eq_of_toOption (by decide +kernel)
  have fourth : newerBack = (.ok (), newerBack.2) := eq_of_toOption (by decide +kernel)
  have firstAsks : Session.Filling.Asks Mailbox.source ⟨2⟩ 20 before.2
    (.ok (some (.batch ⟨[[109]]⟩))) older.2 := .batch first rfl
  have secondAsks : Session.Filling.Asks Mailbox.source ⟨2⟩ 20 older.2
    (.ok (some (.batch ⟨[[110]]⟩))) newer.2 := .batch second rfl
  let idle : Tandem := { mailbox := before.2 }
  let half : Tandem := { mailbox := older.2, held := [(false, .batch ⟨[[109]]⟩)] }
  have one : Step ⟨2⟩ (fun _ => True) idle half := .take false trivial firstAsks
  have two : Step ⟨2⟩ (fun _ => True) half _ := .take true trivial secondAsks
  exact ⟨before.2, before.2.conversation? ⟨2⟩ |>.get (by decide +kernel), _, _, _,
    newerBack.2.conversation? ⟨2⟩ |>.get (by decide +kernel), (Option.some_get _).symm,
    by decide +kernel, .tail (.single one) two, rfl, .all third, .all fourth, rfl,
    (Option.some_get _).symm, by decide +kernel⟩

/-- The connection that took the newer message gives it back last. -/
theorem queued_of_both_given_back_crossing :
    ∃ m c filling failed ended, m.conversation? ⟨2⟩ = some c ∧
      Run ⟨2⟩ (fun _ => True) { mailbox := m } filling ∧ filling.GivesBack ⟨2⟩ false failed ∧
      failed.GivesBack ⟨2⟩ true ended ∧ ∃ c', ended.mailbox.conversation? ⟨2⟩ = some c' ∧
        c.queued = [[109], [110]] ∧ c'.queued = [[110], [109]] := by
  obtain ⟨m, c, filling, failed, ended, -, known, queued, run, held, first, last, none, -, -⟩ :=
    run_crossing
  obtain ⟨c', rest, here, whole, after, -⟩ := queued_of_both_given_back known run first .refl last
  refine ⟨m, c, filling, failed, ended, known, run, first, last, c', here, queued, ?_⟩
  have both : filling.messages = [[109], [110]] := by
    rw [Tandem.messages, held]
    rfl
  obtain rfl : rest = [] := by
    rw [queued, none, both] at whole
    exact (List.append_cancel_left whole).symm
  rw [after, messagesOf, messagesOf, of, of, held]
  rfl

/-- Two connections that give their messages back may turn them around. -/
theorem not_forall_in_order :
    ¬ ∀ m c filling first failed last ended c', m.conversation? ⟨2⟩ = some c →
      Run ⟨2⟩ (fun _ => True) { mailbox := m } filling → filling.GivesBack ⟨2⟩ first failed →
      Run ⟨2⟩ (· = !first) failed last → last.GivesBack ⟨2⟩ (!first) ended →
      ended.mailbox.conversation? ⟨2⟩ = some c' → c'.queued = c.queued ++ ended.queued := by
  obtain ⟨m, c, filling, failed, ended, c', known, queued, run, -, first, last, none, after,
    turned⟩ := run_crossing
  intro ordered
  have same := ordered m c filling false failed failed ended c' known run first .refl last after
  rw [queued, none, turned] at same
  exact absurd same (by decide)

end Tandem

end Courier
