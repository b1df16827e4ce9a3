import Courier.Proofs.Mailbox.Operations
import Courier.Proofs.Session.Packing

/-! # A connection is filled as far as it goes

With a sink that never fails, a session writes exactly the records that the
capacity and the frame limit leave room for. Each step of the filling is
followed on what waits in the mailbox: what is written is gone from its front,
and an update that does not fit is due as before.
-/

namespace Courier

@[simp] theorem Conversation.isNewer_self (version : UInt64) :
    isNewer version (some version) = false :=
  decide_eq_false (UInt64.lt_irrefl version)

@[simp] theorem Conversation.isNewer_none (version : UInt64) : isNewer version none = true := rfl

namespace Mailbox

variable {m : Mailbox} {contact : ContactId} {c : Conversation}

theorem waiting_setConversation (other : Conversation) :
    c.waiting (m.setConversation contact other) = c.waiting m := rfl

/-- The transports are handed out if they are due. Then they wait no more, but again once they are
    given back. -/
theorem transportUpdate_cases (known : m.conversation? contact = some c) :
    (c.waiting m).transports = [] ∧ source.transportUpdate contact m = (.ok none, m) ∨
      ∃ update c', (c.waiting m).transports = [.transportUpdate update] ∧
        source.transportUpdate contact m = (.ok (some update), m.setConversation contact c') ∧
        c'.waiting m = { c.waiting m with transports := [] } ∧
        (c'.restore (.transportUpdate update)).waiting m = c.waiting m := by
  cases published : m.transports with
  | none => exact .inl (by simp [Conversation.waiting, source, takeTransportUpdate, published])
  | some update =>
      simp only [source, takeTransportUpdate, published, update_of_conversation? known,
        Conversation.takeTransportUpdate]
      by_cases due : Conversation.isNewer update.version c.transportsSent = true
      · refine .inr ⟨update, { c with transportsSent := some update.version }, ?_, ?_, ?_, ?_⟩
        · simp [Conversation.waiting, published, due]
        · simp [due]
        · simp [Conversation.waiting, published]
        · simp [Conversation.waiting, published, Conversation.restore, Option.filter_some, due]
      · refine .inl ⟨by simp [Conversation.waiting, published, due], ?_⟩
        simp [due, setConversation_of_conversation? known]

theorem subscriptionUpdate_cases (known : m.conversation? contact = some c) :
    (c.waiting m).subscriptions = [] ∧ source.subscriptionUpdate contact m = (.ok none, m) ∨
      ∃ update c', (c.waiting m).subscriptions = [.subscriptionUpdate update] ∧
        source.subscriptionUpdate contact m = (.ok (some update), m.setConversation contact c') ∧
        c'.waiting m = { c.waiting m with subscriptions := [] } ∧
        (c'.restore (.subscriptionUpdate update)).waiting m = c.waiting m := by
  cases published : m.subscriptions with
  | none => exact .inl (by simp [Conversation.waiting, source, takeSubscriptionUpdate, published])
  | some update =>
      simp only [source, takeSubscriptionUpdate, published, update_of_conversation? known,
        Conversation.takeSubscriptionUpdate]
      by_cases due : Conversation.isNewer update.version c.subscriptionsSent = true
      · refine .inr ⟨update, { c with subscriptionsSent := some update.version }, ?_, ?_, ?_, ?_⟩
        · simp [Conversation.waiting, published, due]
        · simp [due]
        · simp [Conversation.waiting, published]
        · simp [Conversation.waiting, published, Conversation.restore, Option.filter_some, due]
      · refine .inl ⟨by simp [Conversation.waiting, published, due], ?_⟩
        simp [due, setConversation_of_conversation? known]

end Mailbox

namespace Session

/-! ## What is handed out -/

/-- How a mailbox hands out what waits in records of a kind. With `without` only so much of it is
    left. -/
structure Bulk.Given {α β : Type} (bulk : Bulk α) (toRecord : β → Record)
    (generate : ContactId → Nat → Mailbox → Except MailboxFault (Option β) × Mailbox)
    (items : Waiting → List α) (without : Waiting → List α → Waiting) : Prop where
  nothing : ∀ {m : Mailbox} {contact : ContactId} {c : Conversation} (room : Nat),
    m.conversation? contact = some c → bulk.part room (items (c.waiting m)) = [] →
      generate contact room m = (.ok none, m)
  something : ∀ {m : Mailbox} {contact : ContactId} {c : Conversation} (room : Nat),
    m.conversation? contact = some c → bulk.part room (items (c.waiting m)) ≠ [] →
      ∃ given c', generate contact room m = (.ok (some given), m.setConversation contact c') ∧
        toRecord given = bulk.record (bulk.part room (items (c.waiting m))) ∧
        c'.waiting m = without (c.waiting m)
          ((items (c.waiting m)).drop (bulk.part room (items (c.waiting m))).length)
  items_without : ∀ w rest, items (without w rest) = rest
  without_without : ∀ w rest more, without (without w rest) more = without w more
  without_items : ∀ w, without w (items w) = w

theorem Bulk.acks_given : acks.Given .ack Mailbox.source.ack Waiting.owed
    (fun w owed => { w with owed }) where
  nothing := by
    intro m contact c room known none
    have none : fitting room (fun _ => Ack.idLength) 0 Ack.baseLength c.acksOwed = [] := none
    simp [Mailbox.source, Mailbox.takeAck, Mailbox.update_of_conversation? known,
      Conversation.takeAck, none, Mailbox.setConversation_of_conversation? known]
  something := by
    intro m contact c room known some
    have some : fitting room (fun _ => Ack.idLength) 0 Ack.baseLength c.acksOwed ≠ [] := some
    refine ⟨⟨acks.part room c.acksOwed⟩,
      { c with acksOwed := c.acksOwed.drop (acks.part room c.acksOwed).length }, ?_, rfl, rfl⟩
    simp only [Mailbox.source, Mailbox.takeAck, Mailbox.update_of_conversation? known,
      Conversation.takeAck, List.isEmpty_iff, some, if_false]
    rfl
  items_without := fun _ _ => rfl
  without_without := fun _ _ _ => rfl
  without_items := fun _ => rfl

theorem Bulk.batches_given : batches.Given .batch Mailbox.source.batch Waiting.queued
    (fun w queued => { w with queued }) where
  nothing := by
    intro m contact c room known none
    have none : fitting room Batch.messageLength 0 Batch.baseLength c.queued = [] := none
    simp [Mailbox.source, Mailbox.takeBatch, Mailbox.update_of_conversation? known,
      Conversation.takeBatch_eq, none, Mailbox.setConversation_of_conversation? known]
  something := by
    intro m contact c room known some
    have some : fitting room Batch.messageLength 0 Batch.baseLength c.queued ≠ [] := some
    let part : Batch := ⟨batches.part room c.queued⟩
    refine ⟨part,
      { c with
        queued := c.queued.drop part.messages.length
        outstanding := c.outstanding ++ [(part.id, part)] }, ?_, rfl, rfl⟩
    simp only [Mailbox.source, Mailbox.takeBatch, Mailbox.update_of_conversation? known,
      Conversation.takeBatch_eq, List.isEmpty_iff, some, if_false]
    rfl
  items_without := fun _ _ => rfl
  without_without := fun _ _ _ => rfl
  without_items := fun _ => rfl

namespace Filling

/-! ## Steps of the loop -/

section

variable {σ δ α : Type} {source : RecordSource σ} {sink : Sink δ} {contact : ContactId}
  {toRecord : α → Record} {generate : ContactId → Nat → σ → Except MailboxFault (Option α) × σ}
  {f f' : Filling σ δ} {m : σ} {part : α}

theorem writeWhileDue_of_full (full : f.frames.payloadBudget = 0) :
    writeWhileDue source sink contact toRecord generate f = (.ok false, f) := by
  fun_cases writeWhileDue source sink contact toRecord generate f with
  | case1 => rfl
  | case2 room | case3 room | case4 room | case5 room => exact absurd full room

theorem writeWhileDue_of_none (room : f.frames.payloadBudget ≠ 0)
    (asked : generate contact f.frames.payloadBudget f.mailbox = (.ok none, m)) :
    writeWhileDue source sink contact toRecord generate f =
      (.ok true, { f with mailbox := m }) := by
  fun_cases writeWhileDue source sink contact toRecord generate f with
  | case1 full => exact absurd full room
  | case3 _ _ given =>
      rw [given] at asked
      cases asked
      rfl
  | case2 _ _ _ given | case4 _ _ _ given | case5 _ _ _ given =>
      rw [given] at asked
      cases asked

theorem writeWhileDue_of_some (room : f.frames.payloadBudget ≠ 0)
    (asked : generate contact f.frames.payloadBudget f.mailbox = (.ok (some part), m))
    (wrote : writeRecord source sink contact (toRecord part) { f with mailbox := m } =
      (.ok true, f')) :
    writeWhileDue source sink contact toRecord generate f =
      writeWhileDue source sink contact toRecord generate f' := by
  fun_cases writeWhileDue source sink contact toRecord generate f with
  | case1 full => exact absurd full room
  | case2 _ _ _ given | case3 _ _ given =>
      rw [given] at asked
      cases asked
  | case4 _ _ _ given between more =>
      rw [given] at asked
      cases asked
      rw [more] at wrote
      cases wrote
      rfl
  | case5 _ _ _ given stopped =>
      rw [given] at asked
      cases asked
      exact absurd wrote (stopped _)

end

variable {δ : Type} {sink : Sink δ} {context : Context} {device : δ} {capacity limit : Nat}
  {begun : FrameWriter δ} {m : Mailbox} {contact : ContactId}

/-- A filling that started with `begun` has written these records and left this conversation. -/
structure Written (begun : FrameWriter δ) (sink : Sink δ) (capacity : Nat) (m : Mailbox)
    (contact : ContactId) (records : List Record) (c : Conversation) (f : Filling Mailbox δ) :
    Prop where
  mailbox : f.mailbox = m.setConversation contact c
  taken : f.taken = records
  frames : begun.writeEach sink (Frame.ofRecords records) = (.ok (), f.frames)
  enough : records ≠ [] →
    Tag.length + Frame.totalCost (Frame.ofRecords records) + Frame.overhead ≤ capacity

variable {records : List Record} {record : Record} {c c' : Conversation} {f : Filling Mailbox δ}

theorem Written.known (written : Written begun sink capacity m contact records c f) :
    f.mailbox.conversation? contact = some c := by
  rw [written.mailbox, Mailbox.conversation?_setConversation_self]

theorem Written.waiting (written : Written begun sink capacity m contact records c f)
    (other : Conversation) : other.waiting f.mailbox = other.waiting m := by
  rw [written.mailbox, Mailbox.waiting_setConversation]

/-- A step on the conversation alone. -/
theorem Written.leaving (written : Written begun sink capacity m contact records c f)
    (c' : Conversation) : Written begun sink capacity m contact records c'
      { f with mailbox := f.mailbox.setConversation contact c' } where
  mailbox := by simp [written.mailbox]
  taken := written.taken
  frames := written.frames
  enough := written.enough

section

variable (made : FrameWriter.ofContext context device capacity limit = .ok begun)
  (reliable : sink.Reliable)
include made

theorem Written.payloadBudget (written : Written begun sink capacity m contact records c f) :
    f.frames.payloadBudget = roomFor capacity limit records :=
  FrameWriter.payloadBudget_of_writeEach made written.frames

theorem Written.sound (written : Written begun sink capacity m contact records c f) :
    f.frames.faulted = false ∧ f.frames.finished = false ∧ f.frames.frames = records.length := by
  obtain ⟨-, tag, key, -, -, rfl⟩ := (FrameWriter.make_eq_ok_iff ..).mp made
  obtain ⟨count, faulted⟩ := FrameWriter.count_of_writeEach written.frames
  refine ⟨faulted, FrameWriter.unfinished_of_writeEach rfl (fun frame member => ?_) written.frames,
    ?_⟩
  · obtain ⟨record, -, rfl⟩ := List.mem_map.mp member
    rfl
  · rw [count, Frame.ofRecords, List.length_map]
    exact Nat.zero_add _

include reliable in
/-- A record that fits is written. -/
theorem Written.writeRecord (written : Written begun sink capacity m contact records c f)
    (fits : record.encode.length ≤ roomFor capacity limit records)
    (few : records.length ≤ Frame.maxNumber) :
    ∃ f', Filling.writeRecord Mailbox.source sink contact record f = (.ok true, f') ∧
      Written begun sink capacity m contact (records ++ [record]) c f' := by
  obtain ⟨faulted, finished, count⟩ := written.sound made
  have budget := written.payloadBudget made
  have positive := length_encode_pos record
  have allowed : f.frames.refusal? record.encode.length = none :=
    FrameWriter.refusal?_of_budget faulted finished (count ▸ few) positive (budget ▸ fits)
  obtain ⟨frames, wrote⟩ := FrameWriter.write_of_room reliable allowed false
  refine ⟨{ f with frames, taken := f.taken ++ [record] }, ?_, written.mailbox, ?_, ?_, ?_⟩
  · rw [Filling.writeRecord]
    simp only [budget, Nat.not_lt.mpr fits, if_false, wrote]
  · simp only [written.taken]
  · rw [Frame.ofRecords_append, FrameWriter.writeEach_append written.frames]
    simp only [Frame.ofRecords, List.map_cons, List.map_nil, FrameWriter.writeEach, wrote]
  · intro _
    have cost : Frame.totalCost (Frame.ofRecords [record]) =
        Frame.overhead + record.encode.length := rfl
    rw [roomFor, Frame.roomAfter] at fits
    rw [Frame.ofRecords_append, Frame.totalCost_append, cost]
    omega

/-- A record that does not fit goes back, and the filling ends. -/
theorem Written.writeRecord_large (written : Written begun sink capacity m contact records c f)
    (large : roomFor capacity limit records < record.encode.length) :
    ∃ f', Filling.writeRecord Mailbox.source sink contact record f = (.ok false, f') ∧
      Written begun sink capacity m contact records (c.restore record) f' := by
  refine ⟨_, ?_, written.leaving (c.restore record)⟩
  rw [Filling.writeRecord]
  simp only [written.payloadBudget made, large, if_true,
    Mailbox.restore_of_conversation? written.known]
  rfl

/-! ## Updates -/

include reliable in
/-- The update that is due is written if it fits, and waits still otherwise. -/
theorem Written.writeUpdate {α : Type} {toRecord : α → Record}
    {generate : ContactId → Mailbox → Except MailboxFault (Option α) × Mailbox}
    {due : List Record} (written : Written begun sink capacity m contact records c f)
    (leaving : List Record → Waiting) (few : records.length ≤ Frame.maxNumber)
    (waiting : c.waiting m = leaving due)
    (asked : due = [] ∧ generate contact f.mailbox = (.ok none, f.mailbox) ∨
      ∃ update c', due = [toRecord update] ∧
        generate contact f.mailbox = (.ok (some update), f.mailbox.setConversation contact c') ∧
        c'.waiting m = leaving [] ∧ (c'.restore (toRecord update)).waiting m = leaving due) :
    ∃ rest f' c', Filling.writeUpdate Mailbox.source sink contact toRecord generate f =
        (.ok (packUpdates capacity limit records due = due), f') ∧
      Written begun sink capacity m contact
        (records ++ packUpdates capacity limit records due) c' f' ∧
      due = packUpdates capacity limit records due ++ rest ∧ c'.waiting m = leaving rest := by
  rcases asked with ⟨rfl, none⟩ | ⟨update, c', rfl, some, gone, back⟩
  · refine ⟨[], f, c, ?_, by simpa [packUpdates] using written, rfl, waiting⟩
    simp [Filling.writeUpdate, none, packUpdates]
  · have left := written.leaving c'
    by_cases fits : (toRecord update).encode.length ≤ roomFor capacity limit records
    · obtain ⟨f', wrote, after⟩ := left.writeRecord made reliable fits few
      refine ⟨[], f', c', ?_, by simpa [packUpdates, fits] using after, ?_, gone⟩
      · simp [Filling.writeUpdate, some, wrote, packUpdates, fits]
      · simp [packUpdates, fits]
    · obtain ⟨f', wrote, after⟩ := left.writeRecord_large made (Nat.lt_of_not_le fits)
      refine ⟨[toRecord update], f', c'.restore (toRecord update), ?_,
        by simpa [packUpdates, fits] using after, ?_, back⟩
      · simp [Filling.writeUpdate, some, wrote, packUpdates, fits]
      · simp [packUpdates, fits]

end

/-! ## Acknowledgements and batches -/

section

variable {α β : Type} {bulk : Bulk α} {toRecord : β → Record}
  {generate : ContactId → Nat → Mailbox → Except MailboxFault (Option β) × Mailbox}
  {items : Waiting → List α} {without : Waiting → List α → Waiting}

/-- Records of a kind are written until the next item does not fit. The filling goes on unless there
    is no room at all. -/
theorem Written.writeWhileDue
    (made : FrameWriter.ofContext context device capacity limit = .ok begun)
    (reliable : sink.Reliable) (given : bulk.Given toRecord generate items without)
    (written : Written begun sink capacity m contact records c f)
    (few : (records ++ bulk.records capacity limit records (items (c.waiting m))).length ≤
      Frame.maxNumber) :
    ∃ more f' c',
      Filling.writeWhileDue Mailbox.source sink contact toRecord generate f = (.ok more, f') ∧
      Written begun sink capacity m contact
        (records ++ bulk.records capacity limit records (items (c.waiting m))) c' f' ∧
      c'.waiting m =
        without (c.waiting m) (bulk.left capacity limit records (items (c.waiting m))) ∧
      (more = false → roomFor capacity limit
        (records ++ bulk.records capacity limit records (items (c.waiting m))) = 0) := by
  generalize waits : items (c.waiting m) = waiting at few ⊢
  fun_induction bulk.pack capacity limit records waiting generalizing c f with
  | case1 before waiting none =>
      obtain ⟨nothing, all⟩ := Bulk.records_of_nil none
      have budget := written.payloadBudget made
      rw [nothing, all, List.append_nil, ← waits, given.without_items]
      by_cases noRoom : f.frames.payloadBudget = 0
      · exact ⟨false, f, c, writeWhileDue_of_full noRoom, written, rfl, fun _ => budget ▸ noRoom⟩
      · have asked : generate contact f.frames.payloadBudget f.mailbox =
            (.ok .none, f.mailbox) := by
          refine given.nothing _ written.known ?_
          rw [written.waiting, waits, budget, none]
        exact ⟨true, f, c, writeWhileDue_of_none noRoom asked, written, rfl,
          fun stops => Bool.noConfusion stops⟩
  | case2 before waiting some ih =>
      obtain ⟨more, less⟩ := Bulk.records_of_some some
      have budget := written.payloadBudget made
      have fits := Bulk.length_part_le some
      obtain ⟨taken, c', asked, same, after⟩ :
          ∃ taken c', generate contact (roomFor capacity limit before) f.mailbox =
              (.ok (.some taken), f.mailbox.setConversation contact c') ∧
            toRecord taken = bulk.record (bulk.part (roomFor capacity limit before) waiting) ∧
            c'.waiting m = without (c.waiting m)
              (waiting.drop (bulk.part (roomFor capacity limit before) waiting).length) := by
        have its := given.something (roomFor capacity limit before) written.known
        simp only [written.waiting, waits] at its
        exact its some
      rw [← budget] at asked
      have noRoom : f.frames.payloadBudget ≠ 0 := by
        have positive := length_encode_pos
          (bulk.record (bulk.part (roomFor capacity limit before) waiting))
        omega
      rw [more, List.length_append, List.length_cons] at few
      obtain ⟨f', wrote, written'⟩ :=
        (written.leaving c').writeRecord made reliable fits (by omega)
      rw [← same] at wrote
      have waits' : items (c'.waiting m) =
          waiting.drop (bulk.part (roomFor capacity limit before) waiting).length := by
        rw [after, given.items_without]
      obtain ⟨goesOn, last, c'', rest, whole, left, full⟩ := ih written' waits' (by
        rw [List.length_append, List.length_append, List.length_singleton]
        omega)
      rw [more, less, List.append_cons]
      refine ⟨goesOn, last, c'', (writeWhileDue_of_some noRoom asked wrote).trans rest, whole, ?_,
        full⟩
      rw [left, after, given.without_without]

end

/-! ## The whole filling -/

theorem andThen_of_true {σ : Type} {first next : Step σ δ} {f f' : Filling σ δ}
    (goesOn : first f = (.ok true, f')) : first.andThen next f = next f' := by
  rw [Step.andThen, goesOn]

theorem andThen_of_false {σ : Type} {first next : Step σ δ} {f f' : Filling σ δ}
    (stops : first f = (.ok false, f')) : first.andThen next f = (.ok false, f') := by
  rw [Step.andThen, stops]

/-- The updates that are due are written up to the first that does not fit, and the filling goes on
    only if all of them fit. -/
theorem Written.writeUpdates
    (made : FrameWriter.ofContext context device capacity limit = .ok begun)
    (reliable : sink.Reliable) (written : Written begun sink capacity m contact [] c f)
    (few : (packUpdates capacity limit [] (c.waiting m).updates).length ≤ Frame.maxNumber)
    (next : Step Mailbox δ) :
    ∃ (f' : Filling Mailbox δ) (c' : Conversation),
      (Step.andThen (Filling.writeUpdate Mailbox.source sink contact .transportUpdate
        Mailbox.source.transportUpdate) <| Step.andThen (Filling.writeUpdate Mailbox.source sink
          contact .subscriptionUpdate Mailbox.source.subscriptionUpdate) next) f =
        (if packUpdates capacity limit [] (c.waiting m).updates = (c.waiting m).updates then next f'
          else (.ok false, f')) ∧
      Written begun sink capacity m contact
        (packUpdates capacity limit [] (c.waiting m).updates) c' f' ∧
      (c.waiting m).updates =
        packUpdates capacity limit [] (c.waiting m).updates ++ (c'.waiting m).updates ∧
      (c'.waiting m).owed = (c.waiting m).owed ∧ (c'.waiting m).queued = (c.waiting m).queued := by
  have asked := Mailbox.transportUpdate_cases written.known
  simp only [written.waiting] at asked
  generalize waits : c.waiting m = w at few asked ⊢
  obtain ⟨rest, f₁, c₁, wrote, written₁, split, left⟩ := written.writeUpdate made reliable
    (fun transports => { w with transports }) (Nat.zero_le _) waits asked
  rw [List.nil_append] at written₁
  have both := packUpdates_append capacity limit [] w.transports w.subscriptions
  rw [← Waiting.updates, List.nil_append] at both
  by_cases all : packUpdates capacity limit [] w.transports = w.transports
  case neg =>
    -- the transports do not fit, so the filling ends
    rw [if_neg all, List.append_nil] at both
    have short : packUpdates capacity limit [] w.updates ≠ w.updates := by
      intro same
      have lengths := congrArg List.length split
      have more := congrArg List.length (both.symm.trans same)
      rw [List.length_append] at lengths
      rw [Waiting.updates, List.length_append] at more
      obtain rfl := List.eq_nil_of_length_eq_zero (show rest.length = 0 by omega)
      exact all (split.trans (List.append_nil _)).symm
    rw [decide_eq_false all] at wrote
    refine ⟨f₁, c₁, ?_, both ▸ written₁, ?_, by rw [left], by rw [left]⟩
    · rw [andThen_of_false wrote, if_neg short]
    · rw [both, left, Waiting.updates, Waiting.updates, ← List.append_assoc, ← split]
  case pos =>
    rw [if_pos all] at both
    rw [decide_eq_true all] at wrote
    rw [all] at written₁ split both
    obtain rfl : rest = [] := List.append_right_eq_self.mp split.symm
    have asked := Mailbox.subscriptionUpdate_cases written₁.known
    simp only [written₁.waiting, left] at asked
    rw [both, List.length_append] at few
    obtain ⟨rest, f₂, c₂, wrote₂, written₂, split₂, left₂⟩ := written₁.writeUpdate made reliable
      (fun subscriptions => { w with transports := [], subscriptions }) (by omega) left asked
    rw [← both] at written₂
    refine ⟨f₂, c₂, ?_, written₂, ?_, by rw [left₂], by rw [left₂]⟩
    · rw [andThen_of_true wrote]
      have same : packUpdates capacity limit [] w.updates = w.updates ↔
          packUpdates capacity limit w.transports w.subscriptions = w.subscriptions := by
        rw [both, Waiting.updates, List.append_cancel_left_eq]
      by_cases more : packUpdates capacity limit w.transports w.subscriptions = w.subscriptions
      · rw [decide_eq_true more] at wrote₂
        rw [andThen_of_true wrote₂, if_pos (same.mpr more)]
      · rw [decide_eq_false more] at wrote₂
        rw [andThen_of_false wrote₂, if_neg (mt same.mp more)]
    · rw [both, left₂, Waiting.updates, Waiting.updates, List.nil_append, List.append_assoc,
        ← split₂]

/-- What is written is what there is room for, and the rest is left. -/
theorem Written.writeRecords
    (made : FrameWriter.ofContext context device capacity limit = .ok begun)
    (reliable : sink.Reliable) (written : Written begun sink capacity m contact [] c f)
    (few : (packed capacity limit (c.waiting m)).length ≤ Frame.maxNumber) :
    ∃ more f' c', Filling.writeRecords Mailbox.source sink contact f = (.ok more, f') ∧
      Written begun sink capacity m contact (packed capacity limit (c.waiting m)) c' f' ∧
      Leaves capacity limit (c.waiting m) (c'.waiting m) := by
  have first := fun few => written.writeUpdates made reliable few (Step.andThen
    (Filling.writeWhileDue Mailbox.source sink contact .ack Mailbox.source.ack)
    (Filling.writeWhileDue Mailbox.source sink contact .batch Mailbox.source.batch))
  rw [← Filling.writeRecords] at first
  generalize c.waiting m = w at few first ⊢
  by_cases all : packUpdates capacity limit [] w.updates = w.updates
  case neg =>
    rw [packed_of_not_all all] at few ⊢
    obtain ⟨f', c', wrote, written', split, owed, queued⟩ := first few
    rw [if_neg all] at wrote
    have some : (c'.waiting m).updates ≠ [] := by
      intro none
      rw [none, List.append_nil] at split
      exact all split.symm
    exact ⟨false, f', c', wrote, written', split, fun _ => ⟨owed, queued⟩,
      fun none => absurd none some, fun none => absurd none some⟩
  case pos =>
    rw [packed_of_all all, List.length_append] at few
    rw [packed_of_all all]
    have fewer := few
    rw [List.length_append] at fewer
    rw [all] at first
    obtain ⟨f₁, c₁, wrote, written₁, split, owed, queued⟩ := first (by omega)
    rw [if_pos rfl] at wrote
    have none : (c₁.waiting m).updates = [] := List.append_right_eq_self.mp split.symm
    obtain ⟨more, f₂, c₂, wrote₂, written₂, left₂, noRoom⟩ :=
      written₁.writeWhileDue made reliable Bulk.acks_given (by rw [owed]; omega)
    rw [owed] at written₂ left₂ noRoom
    cases more with
    | false =>
        -- nothing fits any more, and so no batch does
        obtain ⟨nothing, same⟩ :
            Bulk.batches.records capacity limit _ w.queued = [] ∧ _ = w.queued :=
          Bulk.records_of_noRoom (noRoom rfl)
        rw [nothing, List.append_nil]
        have gone : (c₂.waiting m).updates = [] := by
          rw [left₂]
          exact none
        refine ⟨false, f₂, c₂, wrote.trans (andThen_of_false wrote₂), written₂, ?_,
          fun some => absurd gone some, fun _ => by rw [left₂], fun _ => ?_⟩
        · rw [all, gone, List.append_nil]
        · rw [same, left₂]
          exact queued
    | true =>
        obtain ⟨more, f₃, c₃, wrote₃, written₃, left₃, -⟩ :=
          written₂.writeWhileDue made reliable Bulk.batches_given (by
            rw [left₂, queued, List.length_append, List.length_append]
            omega)
        rw [left₂, queued] at written₃ left₃
        have gone : (c₃.waiting m).updates = [] := by
          rw [left₃]
          exact none
        refine ⟨more, f₃, c₃, wrote.trans ((andThen_of_true wrote₂).trans wrote₃), written₃, ?_,
          fun some => absurd gone some, fun _ => by rw [left₃], fun _ => by rw [left₃]⟩
        rw [all, gone, List.append_nil]

theorem complete_framesOf (records : List Record) : Frame.Complete (framesOf records) := by
  induction records with
  | nil => exact .last []
  | cons record records ih => exact .more record.encode ih

theorem totalCost_framesOf (records : List Record) : Frame.totalCost (framesOf records) =
    (records.map fun record => 36 + record.encode.length).sum + 36 := by
  rw [framesOf, Frame.totalCost_append, Frame.totalCost_ofRecords]
  rfl

section

variable (made : FrameWriter.ofContext context device capacity limit = .ok begun)
  (reliable : sink.Reliable)
include made reliable

/-- Nothing is put out if nothing was written. -/
theorem Written.finish_nil (written : Written begun sink capacity m contact [] c f) :
    ∃ frames, f.frames.finish sink = (.ok (), frames) ∧ frames.outlet.taken = [] := by
  obtain ⟨-, tag, key, -, -, fresh⟩ := (FrameWriter.make_eq_ok_iff ..).mp made
  have same : f.frames = begun := (Prod.mk.inj written.frames).2.symm
  obtain ⟨frames, flushed⟩ := FrameWriter.exists_flush reliable begun
  have direct : begun.finish sink = begun.flush sink := by
    rw [fresh]
    rfl
  refine ⟨frames, by rw [same, direct, flushed], ?_⟩
  rw [FrameWriter.taken_of_flush flushed, fresh]
  rfl

/-- There is room for the final frame after the records. -/
theorem Written.writeEach_final (written : Written begun sink capacity m contact records c f)
    (some : records ≠ []) (few : records.length ≤ Frame.maxNumber) :
    ∃ last, begun.writeEach sink (framesOf records) = (.ok (), last) := by
  obtain ⟨-, tag, key, -, -, fresh⟩ := (FrameWriter.make_eq_ok_iff ..).mp made
  have long := FrameWriter.overhead_le_of_ofContext made
  have within := (FrameWriter.limits_of_writeEach written.frames long).1
  have enough := written.enough some
  rw [Frame.totalCost_ofRecords, Tag.length, Frame.overhead] at enough
  refine FrameWriter.writeEach_of_room reliable (complete_framesOf records) (by rw [fresh])
    (by rw [fresh]) ?_ ?_ ?_
  · intro frame member
    rcases List.mem_append.mp member with record | final
    · exact within frame record
    · obtain rfl := List.mem_singleton.mp final
      simpa using long
  · rw [fresh, framesOf, List.length_append, Frame.ofRecords, List.length_map]
    simpa using few
  · rw [totalCost_framesOf, fresh]
    simp only [FrameWriter.tagCost, Option.isSome_some, if_true, Tag.length]
    omega

/-- The tag, the frames of the records and the final one are put out. -/
theorem Written.finish_some (written : Written begun sink capacity m contact records c f)
    (some : records ≠ []) (few : records.length ≤ Frame.maxNumber) :
    ∃ frames, f.frames.finish sink = (.ok (), frames) ∧ frames.outlet.taken.length =
      16 + (records.map fun record => 36 + record.encode.length).sum + 36 := by
  obtain ⟨last, whole⟩ := written.writeEach_final made reliable some few
  obtain ⟨faulted, finished, -⟩ := written.sound made
  obtain ⟨-, tag, key, -, -, fresh⟩ := (FrameWriter.make_eq_ok_iff ..).mp made
  have long := FrameWriter.overhead_le_of_ofContext made
  have frames_some : Frame.ofRecords records ≠ [] := by simpa [Frame.ofRecords] using some
  have sent := ((FrameWriter.limits_of_writeEach written.frames long).2 frames_some).2
  have final := whole
  rw [framesOf, FrameWriter.writeEach_append written.frames,
    FrameWriter.writeEach_cons_eq_ok_iff] at final
  obtain ⟨between, wrote, rest⟩ := final
  obtain rfl : between = last := (Prod.mk.inj rest).2
  obtain ⟨frames, flushed⟩ := FrameWriter.exists_flush reliable between
  refine ⟨frames, ?_, ?_⟩
  · simp only [FrameWriter.finish, faulted, finished, sent, Option.isSome_none, Bool.or_self,
      Bool.false_eq_true, if_false, wrote, flushed]
  · have all : framesOf records ≠ [] := by simp [framesOf]
    have tagLength : (Block.toBytes tag).length = 16 := Block.length_toBytes tag
    rw [FrameWriter.taken_of_flush flushed, FrameWriter.writeEach_taken all whole, fresh]
    simp only [FrameWriter.tagBytes, Outlet.taken, Option.elim_some, List.length_append,
      Frame.length_bytesFrom, totalCost_framesOf, tagLength, Gathered.toBytes_empty,
      List.length_nil]
    omega

/-- The connection is closed, and what was put out is the tag and the frames, if there are any. -/
theorem Written.finish (written : Written begun sink capacity m contact records c f)
    (few : records.length ≤ Frame.maxNumber) :
    ∃ frames, f.frames.finish sink = (.ok (), frames) ∧
      frames.outlet.taken.length = if records = [] then 0 else
        16 + (records.map fun record => 36 + record.encode.length).sum + 36 := by
  by_cases none : records = []
  · subst none
    obtain ⟨frames, closed, nothing⟩ := written.finish_nil made reliable
    exact ⟨frames, closed, by rw [nothing, if_pos rfl, List.length_nil]⟩
  · obtain ⟨frames, closed, length⟩ := written.finish_some made reliable none few
    exact ⟨frames, closed, by rw [length, if_neg none]⟩

end

variable (contact) in
/-- A new filling completes, with the records that there is room for. -/
theorem run_packed {held : δ → Bytes} (keeps : sink.Keeps held) (empty : held device = [])
    (made : FrameWriter.ofContext context device capacity limit = .ok begun)
    (reliable : sink.Reliable)
    (few : (packed capacity limit (c.waiting m)).length ≤ Frame.maxNumber) :
    ∃ f' c', Filling.run Mailbox.source sink contact
        { mailbox := m.setConversation contact c, frames := begun } = (.ok (), f') ∧
      f'.mailbox = m.setConversation contact c' ∧
      f'.taken = packed capacity limit (c.waiting m) ∧
      f'.frames.written = (held f'.frames.outlet.device).length ∧
      Full capacity limit (c.waiting m) (c'.waiting m) f'.taken f'.frames.written := by
  have begins : Written begun sink capacity m contact [] c
      { mailbox := m.setConversation contact c, frames := begun } :=
    ⟨rfl, rfl, rfl, fun some => absurd rfl some⟩
  obtain ⟨more, f, c', filled, written, leaves⟩ := begins.writeRecords made reliable few
  obtain ⟨frames, closed, length⟩ := written.finish made reliable few
  obtain ⟨-, tag, key, -, -, fresh⟩ := (FrameWriter.make_eq_ok_iff ..).mp made
  have charged : frames.written = frames.outlet.taken.length := by
    have all := ((FrameWriter.charged_writeEach written.frames).trans
      (FrameWriter.charged_finish closed)).written
    have nothing : begun.outlet.taken.length = 0 ∧ begun.written = 0 := by
      rw [fresh]
      exact ⟨rfl, rfl⟩
    omega
  have since : Sink.Since held [] frames.outlet := by
    have begins : Sink.Since held [] begun.outlet := by
      rw [fresh, Sink.Since, empty]
      rfl
    have between := FrameWriter.writeEach_since keeps
      (Frame.ofRecords (packed capacity limit (c.waiting m))) begins
    rw [written.frames] at between
    have ended := FrameWriter.finish_since keeps between
    rwa [closed] at ended
  rw [Sink.Since, List.nil_append] at since
  refine ⟨{ f with frames }, c', ?_, written.mailbox, written.taken, ?_, ?_⟩
  · rw [run, filled]
    simp only [closed]
  · rw [charged, since]
  · simp only [written.taken]
    refine leaves.full (charged.trans length) ?_
    rw [charged, length]
    split
    · exact Nat.zero_le _
    next some =>
      have enough := written.enough some
      rwa [Frame.totalCost_ofRecords] at enough

end Filling

/-! ## The whole session -/

theorem make_of_blank {δ : Type} {device : δ} {capacity limit stream : Nat} {secret : Secret}
    {role : Role} (long : Frame.overhead < Frame.effectiveLength limit)
    (range : stream ≤ maxContext)
    (blank : secret.isBlank = true ∨
      ∃ key, secret.derive (.tagKey role) = .ok key ∧ key.isBlank = true) :
    FrameWriter.make device capacity limit secret stream role = .error (.crypto .blankSecret) := by
  have noTag : Tag.make secret stream role = .error .blankSecret := by
    rcases blank with secretBlank | ⟨key, derived, keyBlank⟩
    · simp [Tag.make, Secret.derive, Secret.deriveLabelled, secretBlank, Purpose.context, bind,
        Except.bind]
    · simp [Tag.make, derived, keyBlank, Tag.encode, Nat.not_lt.mpr range, bind, Except.bind]
  rw [FrameWriter.make, if_neg (Nat.not_le.mpr long), noTag]
  rfl

namespace Sending

variable {δ : Type} {held : δ → Bytes} {writer : WritingEnd δ} {route : Route}
  {s : Sending Mailbox δ} {c : Conversation} {lane : Lane}

variable (route) in
/-- Over a connection that never fails and carries at least a tag and two frames, a session
    completes, for any mailbox that knows the contact and has a stream left on the lane. The records
    are those for which there is room, the bytes are the ones on the device, and what is left does
    not fit. Only a blank secret stops it. -/
theorem send_full (faithful : writer.Faithful held) (reliable : writer.sink.Reliable)
    (empty : held s.device = []) (fresh : s.phase = .start)
    (known : s.mailbox.conversation? route.contact = some c)
    (here : c.lanes.find? route.transport = some lane) (range : lane.next ≤ maxContext)
    (wide : Frame.minConnectionLength ≤ writer.capacity)
    (long : Frame.overhead < writer.maxFrameLength)
    (few : (packed writer.capacity writer.maxFrameLength (c.waiting s.mailbox)).length + 1 <
      Frame.maxNumber) :
    ((lane.secret.isBlank = true ∨
        ∃ key, lane.secret.derive (.tagKey c.role) = .ok key ∧ key.isBlank = true) ∧
      (s.send Mailbox.source writer route).1 = .error (.connection (.crypto .blankSecret))) ∨
    ∃ bytes records s' c', s.send Mailbox.source writer route =
        (.ok (.completed bytes records.length), s') ∧
      bytes = (held s'.device).length ∧
      records = packed writer.capacity writer.maxFrameLength (c.waiting s.mailbox) ∧
      (records ≠ [] → Carries lane.secret lane.next c.role records (held s'.device)) ∧
      s'.mailbox = s.mailbox.setConversation route.contact c' ∧
      Full writer.capacity writer.maxFrameLength (c.waiting s.mailbox) (c'.waiting s'.mailbox)
        records bytes := by
  let used : Conversation :=
    { c with lanes := c.lanes.insert route.transport { lane with next := lane.next + 1 } }
  have asked : Mailbox.source.context route s.mailbox =
      (.ok (some { route, secret := lane.secret, stream := lane.next, role := c.role }),
        s.mailbox.setConversation route.contact used) := by
    simp only [Mailbox.source, Mailbox.context, known, here, if_neg (Nat.not_lt.mpr range)]
    rfl
  have room : Frame.overhead < Frame.effectiveLength writer.maxFrameLength :=
    lt_min long (by decide)
  by_cases blank : lane.secret.isBlank = true ∨
      ∃ key, lane.secret.derive (.tagKey c.role) = .ok key ∧ key.isBlank = true
  case pos =>
    refine .inl ⟨blank, ?_⟩
    have unmade : FrameWriter.make s.device writer.capacity writer.maxFrameLength lane.secret
        lane.next c.role = .error (.crypto .blankSecret) := make_of_blank room range blank
    simp only [send, fresh, run, asked, if_neg (Nat.not_lt.mpr wide), FrameWriter.ofContext, unmade]
  case neg =>
    have usable : lane.secret.isBlank = false := by
      simpa using fun secretBlank => blank (.inl secretBlank)
    have tagKey : ∀ key, lane.secret.derive (.tagKey c.role) = .ok key → key.isBlank = false := by
      intro key derived
      simpa using fun keyBlank => blank (.inr ⟨key, derived, keyBlank⟩)
    obtain ⟨tag, tagged⟩ := FrameWriter.tag_make_of_usable usable range tagKey
    obtain ⟨key, keyed⟩ := Secret.derive_of_usable (.frameKey c.role lane.next) usable range
    obtain ⟨begun, made⟩ : ∃ begun, FrameWriter.ofContext
        { route, secret := lane.secret, stream := lane.next, role := c.role } s.device
        writer.capacity writer.maxFrameLength = .ok begun :=
      ⟨_, (FrameWriter.make_eq_ok_iff ..).mpr ⟨room, tag, key, tagged, keyed, rfl⟩⟩
    have fewEnough : (packed writer.capacity writer.maxFrameLength
        (used.waiting s.mailbox)).length ≤ Frame.maxNumber :=
      Nat.le_of_succ_le (Nat.le_of_lt few)
    obtain ⟨f, c', completed, mailbox, taken, bytes, full⟩ :=
      Filling.run_packed route.contact faithful.keeps empty made reliable fewEnough
    have released := faithful.released false f.frames.outlet.device
    let ended : Sending Mailbox δ :=
      { mailbox := f.mailbox
        device := (writer.dispose false f.frames.outlet.device).2
        phase := .disposed false }
    refine .inr ⟨f.frames.written, f.taken, ended, c', ?_, ?_, taken, ?_, mailbox, ?_⟩
    · simp only [send, fresh, run, asked, if_neg (Nat.not_lt.mpr wide), made, completed]
      rfl
    · rw [bytes, ← released]
    · intro some
      have carries := Filling.carries_of_run faithful.keeps empty made completed some
      rwa [← released] at carries
    · rw [show ended.mailbox = s.mailbox.setConversation route.contact c' from mailbox]
      exact full

set_option maxRecDepth 100000 in
/-- One record of each kind but subscriptions fits, and a long message is left. -/
theorem send_full_long_message_left :
    let m := Mailbox.applyAll
      [.addContact ⟨2⟩ (.repeated 7) .alice [⟨0⟩], .publishTransports ⟨.empty, 1⟩,
        .receive ⟨2⟩ (.batch ⟨[[1]]⟩), .queue ⟨2⟩ [109], .queue ⟨2⟩ (List.replicate 200 0)] {}
    ∃ bytes s', ({ mailbox := m, device := {} } : Sending Mailbox Memory.Outbound).send
        Mailbox.source (Memory.writingEnd {} 350) ⟨⟨2⟩, ⟨0⟩⟩ = (.ok (.completed bytes 3), s') ∧
      bytes = s'.device.bytes.length ∧ bytes ≤ 350 := by
  intro m
  let c := m.conversation? ⟨2⟩ |>.get (by decide +kernel)
  let lane := c.lanes.find? ⟨0⟩ |>.get (by decide +kernel)
  have three : (packed 350 Frame.maxLength (c.waiting m)).length = 3 := by decide +kernel
  have few : (packed 350 Frame.maxLength (c.waiting m)).length + 1 < Frame.maxNumber := by
    rw [three]
    decide
  have usable : lane.secret.isBlank = false := by decide +kernel
  have tagKey : ∀ key, lane.secret.derive (.tagKey c.role) = .ok key → key.isBlank = false :=
    Secret.usable_of_computed (by decide +kernel)
  have here : c.lanes.find? ⟨0⟩ = some lane := (Option.some_get _).symm
  have full := send_full ⟨⟨2⟩, ⟨0⟩⟩ (s := { mailbox := m, device := {} })
    (Memory.writingEnd_faithful {} 350 Frame.maxLength)
    (Memory.sink_reliable Memory.WriteLimits.harmless_default) rfl rfl (Option.some_get _).symm here
    (by decide +kernel) (by decide) (by decide) few
  rcases full with ⟨secret | ⟨key, derived, keyBlank⟩, -⟩ |
    ⟨bytes, records, s', c', sent, size, all, -, -, full⟩
  · rw [usable] at secret
    cases secret
  · rw [tagKey key derived] at keyBlank
    cases keyBlank
  · have count : records.length = 3 := by
      rw [all]
      exact three
    rw [count] at sent
    exact ⟨bytes, s', sent, size, full.within⟩

end Sending

end Session

end Courier
