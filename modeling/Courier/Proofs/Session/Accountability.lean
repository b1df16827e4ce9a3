import Courier.Proofs.Session.Completion
import Courier.Proofs.Session.Observed

/-! # Every record is accounted for

A session may be given any source of records and any writing end, however they
behave. It calls them a bounded number of times, and then each record that it
was handed is a frame of the connection or was given back once. What did not
fit goes back alone, and what a failed connection may have lost goes back
together after it. The writing end is released at last, and once.
-/

namespace Courier

/-! ## Reading what was noted down -/

namespace Dealing

def generated? : Dealing → Option Record
  | asked _ _ (.ok record) => record
  | keyed .. | asked _ _ (.error _) | returned .. => none

def returned? : Dealing → Option (List Record)
  | returned _ records _ => some records
  | keyed .. | asked .. => none

/-- The records that were handed out, in order. -/
def generated (dealings : List Dealing) : List Record :=
  dealings.filterMap generated?

/-- What was given back, one list for each time. -/
def givenBack (dealings : List Dealing) : List (List Record) :=
  dealings.filterMap returned?

def Concerns (route : Route) : Dealing → Prop
  | keyed other _ => other = route
  | asked contact _ _ | returned contact _ _ => contact = route.contact

end Dealing

namespace Motion

/-- The bytes that were taken. -/
def taken : Motion → Bytes
  | offered data (.ok count) => data.take count
  | offered _ (.error _) | flushed _ | released .. => []

def isRelease : Motion → Bool
  | released .. => true
  | offered .. | flushed _ => false

end Motion

variable {σ δ : Type}

/-! ## What a sink is called for -/

/-- The calls between two states of an observed outlet take the bytes that were put out, and at most
    `wasted` of them take none. -/
def Outlet.Goes (wasted : Nat) (before after : Outlet (δ × List Motion)) : Prop :=
  ∃ motions, after.device.2 = before.device.2 ++ motions ∧
    (∀ motion ∈ motions, motion.isRelease = false) ∧
    motions.length ≤ (motions.flatMap Motion.taken).length + wasted ∧
    after.taken = before.taken ++ motions.flatMap Motion.taken

/-- How many calls may be in vain. -/
def wasted {ε α : Type} : Except ε α → Nat
  | .ok _ => 0
  | .error _ => 1

namespace Outlet.Goes

variable {before between after : Outlet (δ × List Motion)} {few more : Nat}

theorem refl (outlet : Outlet (δ × List Motion)) : Goes 0 outlet outlet :=
  ⟨[], by simp, by simp, by simp, by simp⟩

theorem trans (first : Goes few before between) (next : Goes more between after) :
    Goes (few + more) before after := by
  obtain ⟨motions, noted, kept, count, taken⟩ := first
  obtain ⟨motions', noted', kept', count', taken'⟩ := next
  refine ⟨motions ++ motions', ?_, ?_, ?_, ?_⟩
  · rw [noted', noted, List.append_assoc]
  · intro motion member
    rcases List.mem_append.mp member with here | there
    · exact kept motion here
    · exact kept' motion there
  · rw [List.flatMap_append, List.length_append, List.length_append]
    omega
  · rw [taken', taken, List.flatMap_append, List.append_assoc]

theorem mono (goes : Goes few before after) (least : few ≤ more) : Goes more before after := by
  obtain ⟨motions, noted, kept, count, taken⟩ := goes
  exact ⟨motions, noted, kept, Nat.le_trans count (Nat.add_le_add_left least _), taken⟩

end Outlet.Goes

namespace Sink

variable {sink : Sink δ}

/-- An observed offer is one call more. -/
private theorem offer_observed {data : Bytes} {outlet outlet' : Outlet (δ × List Motion)}
    {answer : Except DeviceFault Nat}
    (offered : sink.observed.offer data outlet = (answer, outlet')) :
    outlet'.device.2 = outlet.device.2 ++ [.offered data answer] ∧
      outlet'.taken = outlet.taken ++ (Motion.offered data answer).taken := by
  rcases given : sink.write data outlet.device.1 with ⟨fault | count, device⟩ <;>
    simp only [offer, observed, given] at offered <;> obtain ⟨rfl, rfl⟩ := Prod.mk.inj offered
  · exact ⟨rfl, (List.append_nil _).symm⟩
  · exact ⟨rfl, Gathered.toBytes_add ..⟩

theorem goes_of_offer {data : Bytes} {outlet outlet' : Outlet (δ × List Motion)}
    {answer : Except DeviceFault Nat}
    (offered : sink.observed.offer data outlet = (answer, outlet')) :
    Outlet.Goes 1 outlet outlet' := by
  obtain ⟨noted, taken⟩ := offer_observed offered
  exact ⟨_, noted, by simp [Motion.isRelease], by simp, by simpa using taken⟩

theorem goes_of_taken {data : Bytes} {outlet outlet' : Outlet (δ × List Motion)} {count : Nat}
    (some : data ≠ []) (offered : sink.observed.offer data outlet = (.ok (count + 1), outlet')) :
    Outlet.Goes 0 outlet outlet' := by
  obtain ⟨noted, taken⟩ := offer_observed offered
  have positive := List.length_pos_iff.mpr some
  refine ⟨_, noted, by simp [Motion.isRelease], ?_, by simpa using taken⟩
  simp only [List.length_singleton, List.flatMap_singleton, Motion.taken, List.length_take]
  omega

theorem goes_writeAll (sink : Sink δ) (data : Bytes) (outlet : Outlet (δ × List Motion)) :
    Outlet.Goes (wasted (sink.observed.writeAll data outlet).1) outlet
      (sink.observed.writeAll data outlet).2 := by
  fun_induction Sink.writeAll sink.observed data outlet with
  | case1 outlet => exact .refl outlet
  | case2 outlet byte rest between offered => exact goes_of_offer offered
  | case3 outlet byte rest count between offered ih =>
      have goes := (goes_of_taken (List.cons_ne_nil byte rest) offered).trans ih
      rwa [Nat.zero_add] at goes
  | case4 outlet byte rest fault between offered => exact goes_of_offer offered

end Sink

namespace FrameWriter

theorem goes_write (sink : Sink δ) (w : FrameWriter (δ × List Motion)) (payload : Bytes)
    (final : Bool) :
    Outlet.Goes (wasted (w.write sink.observed payload final).1) w.outlet
      (w.write sink.observed payload final).2.outlet := by
  have goes := Sink.goes_writeAll sink (w.nextBytes payload final) w.outlet
  simp only [write]
  cases w.refusal? payload.length with
  | some fault => exact (Outlet.Goes.refl w.outlet).mono (Nat.zero_le _)
  | none =>
      rcases written : sink.observed.writeAll (w.nextBytes payload final) w.outlet with
        ⟨fault | done, outlet⟩
      · rwa [written] at goes
      · rwa [written] at goes

theorem goes_flush (sink : Sink δ) (w : FrameWriter (δ × List Motion)) :
    Outlet.Goes 1 w.outlet (w.flush sink.observed).2.outlet := by
  rcases given : sink.flush w.outlet.device.1 with ⟨fault | done, device⟩ <;>
    simp only [flush, Sink.flushAll, Sink.observed, given]
  · exact ⟨[.flushed (.error fault)], rfl, by simp [Motion.isRelease], by simp,
      (List.append_nil _).symm⟩
  · exact ⟨[.flushed (.ok done)], rfl, by simp [Motion.isRelease], by simp,
      (List.append_nil _).symm⟩

theorem goes_finish (sink : Sink δ) (w : FrameWriter (δ × List Motion)) :
    Outlet.Goes 1 w.outlet (w.finish sink.observed).2.outlet := by
  simp only [finish]
  split
  · exact (Outlet.Goes.refl w.outlet).mono (Nat.zero_le 1)
  · split
    · exact goes_flush sink w
    · have goes := goes_write sink w [] true
      split
      next last written =>
        rw [written] at goes
        exact goes.trans (goes_flush sink last)
      next failed =>
        rw [failed] at goes
        exact goes

end FrameWriter

theorem Sink.observed_keeps (sink : Sink δ) :
    sink.observed.Keeps fun device => device.2.flatMap Motion.taken where
  taken := by
    intro data device count device' written
    obtain ⟨answer, rfl⟩ := Prod.mk.inj written
    rw [List.flatMap_append, List.flatMap_singleton, answer]
    rfl
  refused := by
    intro data device fault device' refused
    obtain ⟨answer, rfl⟩ := Prod.mk.inj refused
    rw [List.flatMap_append, List.flatMap_singleton, answer]
    exact List.append_nil _
  flushed := by
    intro device
    exact (List.flatMap_append ..).trans (List.append_nil _)

/-! ## What a filling is called for -/

namespace Session.Filling

variable {source : RecordSource σ} {sink : Sink δ} {contact : ContactId} {budget : Nat}
  {m m' : σ × List Dealing}

theorem Asks.noted {answer : Except MailboxFault (Option Record)}
    (asked : Asks source.observed contact budget m answer m') :
    ∃ limit, m'.2 = m.2 ++ [.asked contact limit answer] := by
  cases asked with
  | transportUpdate asked same | subscriptionUpdate asked same =>
      obtain ⟨rfl, rfl⟩ := Prod.mk.inj asked
      exact ⟨none, by rw [same]⟩
  | ack asked same | batch asked same =>
      obtain ⟨rfl, rfl⟩ := Prod.mk.inj asked
      exact ⟨some budget, by rw [same]⟩

theorem noted_of_restore {records : List Record} {answer : Except MailboxFault Unit}
    (restored : source.observed.restore contact records m = (answer, m')) :
    m'.2 = m.2 ++ [.returned contact records answer] := by
  obtain ⟨rfl, rfl⟩ := Prod.mk.inj restored
  rfl

/-- What came of a part of a filling: the calls of the source, the records that were written or at
    least begun, and the one that did not fit. -/
structure Deals (contact : ContactId) (sink : Sink δ) (kinds : Nat)
    (f : Filling (σ × List Dealing) (δ × List Motion))
    (ended : Except SessionFault Bool × Filling (σ × List Dealing) (δ × List Motion))
    (dealings : List Dealing) (begun : List Record) (unfit : Option Record) : Prop where
  noted : ended.2.mailbox.2 = f.mailbox.2 ++ dealings
  concerns : ∀ dealing ∈ dealings, ∀ transport, dealing.Concerns ⟨contact, transport⟩
  taken : ended.2.taken = f.taken ++ begun
  generated : Dealing.generated dealings = begun ++ unfit.toList
  givenBack : Dealing.givenBack dealings = unfit.toList.map fun record => [record]
  large : ∀ record ∈ unfit,
    f.frames.writeEach sink.observed (Frame.ofRecords begun) = (.ok (), ended.2.frames) ∧
      ended.2.frames.payloadBudget < record.encode.length
  few : dealings.length * Frame.overhead + ended.2.frames.remaining ≤
    f.frames.remaining + (kinds + 2) * Frame.overhead
  goes : Outlet.Goes (wasted ended.1) f.frames.outlet ended.2.frames.outlet

variable {kinds : Nat} {f : Filling (σ × List Dealing) (δ × List Motion)}
  {ended : Except SessionFault Bool × Filling (σ × List Dealing) (δ × List Motion)}

/-- A record that does not fit is given back alone, and nothing is written. -/
theorem deals_of_largeRecord {record : Record} {between : σ × List Dealing}
    {answer : Except MailboxFault Unit} {result : Except SessionFault Bool}
    (asked : Asks source.observed contact f.frames.payloadBudget f.mailbox (.ok (some record))
      between)
    (large : f.frames.payloadBudget < record.encode.length)
    (restored : source.observed.restore contact [record] between = (answer, m')) :
    ∃ limit, Deals contact sink kinds f (result, { f with mailbox := m' })
      [.asked contact limit (.ok (some record)), .returned contact [record] answer] []
      (some record) := by
  obtain ⟨limit, noted⟩ := asked.noted
  have after := noted_of_restore restored
  refine ⟨limit, ?_⟩
  constructor
  case noted => rw [after, noted, List.append_assoc]; rfl
  case concerns => simp [Dealing.Concerns]
  case taken => simp
  case generated | givenBack => rfl
  case large =>
    rintro _ ⟨⟩
    exact ⟨rfl, large⟩
  case few =>
    simp only [Frame.overhead, List.length_cons, List.length_nil]
    omega
  case goes => exact (Outlet.Goes.refl _).mono (Nat.zero_le _)

/-- A filling that goes wrong was called for one record at most. -/
theorem deals_of_fails {f' : Filling (σ × List Dealing) (δ × List Motion)} {fault : SessionFault}
    (fails : Fails source.observed sink.observed contact f fault f') :
    ∃ dealings begun unfit,
      Deals contact sink kinds f (.error fault, f') dealings begun unfit := by
  cases fails with
  | @refused m cause asked =>
      obtain ⟨limit, noted⟩ := asked.noted
      refine ⟨[.asked contact limit (.error cause)], [], none, ?_⟩
      constructor
      case noted => exact noted
      case concerns => simp [Dealing.Concerns]
      case taken => simp
      case generated | givenBack => rfl
      case large => simp
      case few =>
        simp only [Frame.overhead, List.length_singleton]
        omega
      case goes => exact (Outlet.Goes.refl _).mono (Nat.zero_le 1)
  | notRestored asked large restored =>
      obtain ⟨limit, deals⟩ := deals_of_largeRecord asked large restored
      exact ⟨_, _, _, deals⟩
  | @notWritten record m frames cause asked failed =>
      obtain ⟨limit, noted⟩ := asked.noted
      have goes := FrameWriter.goes_write sink f.frames record.encode false
      rw [failed] at goes
      refine ⟨[.asked contact limit (.ok (some record))], [record], none, ?_⟩
      constructor
      case noted => exact noted
      case concerns => simp [Dealing.Concerns]
      case taken => rfl
      case generated | givenBack => rfl
      case large => simp
      case few =>
        have same : frames.remaining = f.frames.remaining :=
          FrameWriter.remaining_of_failed failed
        simp only [Frame.overhead, List.length_singleton]
        omega
      case goes => exact goes

theorem deals_of_fills (fills : Fills source.observed sink.observed contact kinds f ended) :
    ∃ dealings begun unfit, Deals contact sink kinds f ended dealings begun unfit := by
  induction fills with
  | @idle kinds f m ended asked _ ih =>
      obtain ⟨limit, noted⟩ := asked.noted
      obtain ⟨dealings, begun, unfit, deals⟩ := ih
      refine ⟨.asked contact limit (.ok none) :: dealings, begun, unfit, ?_⟩
      constructor
      case noted => rw [deals.noted, noted, List.append_assoc]; rfl
      case concerns => simpa [Dealing.Concerns] using deals.concerns
      case taken => exact deals.taken
      case generated => exact deals.generated
      case givenBack => exact deals.givenBack
      case large => exact deals.large
      case few =>
        have few : dealings.length * Frame.overhead + ended.2.frames.remaining ≤
            f.frames.remaining + (kinds + 2) * Frame.overhead := deals.few
        simp only [Frame.overhead, List.length_cons] at few ⊢
        omega
      case goes => exact deals.goes
  | @wrote kinds f record m frames ended asked fits written _ ih =>
      obtain ⟨limit, noted⟩ := asked.noted
      obtain ⟨dealings, begun, unfit, deals⟩ := ih
      have goes := FrameWriter.goes_write sink f.frames record.encode false
      rw [written] at goes
      refine ⟨.asked contact limit (.ok (some record)) :: dealings, record :: begun, unfit, ?_⟩
      constructor
      case noted => rw [deals.noted, noted, List.append_assoc]; rfl
      case concerns => simpa [Dealing.Concerns] using deals.concerns
      case taken => rw [deals.taken, List.append_assoc]; rfl
      case generated => rw [List.cons_append, ← deals.generated]; rfl
      case givenBack => exact deals.givenBack
      case large =>
        intro large member
        obtain ⟨each, room⟩ := deals.large large member
        exact ⟨(FrameWriter.writeEach_cons_eq_ok_iff ..).mpr ⟨frames, written, each⟩, room⟩
      case few =>
        have few : dealings.length * Frame.overhead + ended.2.frames.remaining ≤
            frames.remaining + (kinds + 2) * Frame.overhead := deals.few
        -- the room that the frame took pays for the call
        have less := FrameWriter.remaining_of_write written
        simp only [Frame.overhead, List.length_cons] at few less ⊢
        omega
      case goes => exact Nat.zero_add (wasted ended.1) ▸ goes.trans deals.goes
  | @stops kinds f more =>
      refine ⟨[], [], none, ?_⟩
      exact ⟨by simp, by simp, by simp, rfl, rfl, by simp, by simp, .refl _⟩
  | gaveBack asked large restored =>
      obtain ⟨limit, deals⟩ := deals_of_largeRecord asked large restored
      exact ⟨_, _, _, deals⟩
  | fails fails => exact deals_of_fails fails

/-! ## Whole fillings -/

theorem charged_of_moves {source : RecordSource σ} {sink : Sink δ} {f f' : Filling σ δ}
    (moves : Moves source sink contact f f') : f.frames.Charged f'.frames := by
  obtain ⟨written, -, each⟩ := writeEach_of_moves moves
  exact FrameWriter.charged_writeEach each

/-- However a filling ends, no more is put out than may be. -/
theorem taken_run_le {source : RecordSource σ} {sink : Sink δ} {f f' : Filling σ δ}
    {result : Except SessionFault Unit} (ran : run source sink contact f = (result, f')) :
    f'.frames.outlet.taken.length ≤ f.frames.outlet.taken.length + f.frames.remaining := by
  cases result with
  | ok =>
      obtain ⟨last, frames, moves, closed, rfl⟩ := run_ok ran
      have charged := (charged_of_moves moves).remaining
      have final := (FrameWriter.charged_finish closed).remaining
      simp only
      omega
  | error fault =>
      obtain ⟨last, moves, fails | ⟨cause, frames, closed, -, rfl⟩⟩ := run_error ran
      · have charged := (charged_of_moves moves).remaining
        cases fails with
        | refused | notRestored =>
            simp only
            omega
        | @notWritten record m frames cause asked failed =>
            have wrote := FrameWriter.taken_write_le sink last.frames record.encode false
            rw [failed] at wrote
            simp only at wrote ⊢
            omega
      · have charged := (charged_of_moves moves).remaining
        have final := FrameWriter.taken_finish_le sink last.frames
        rw [closed] at final
        simp only at final ⊢
        omega

theorem charged_of_run {source : RecordSource σ} {sink : Sink δ} {f f' : Filling σ δ}
    (completed : run source sink contact f = (.ok (), f')) : f.frames.Charged f'.frames := by
  obtain ⟨last, frames, moves, closed, rfl⟩ := run_ok completed
  exact (charged_of_moves moves).trans (FrameWriter.charged_finish closed)

/-- A filling that took nothing leaves its connection empty. -/
theorem taken_of_empty_run {source : RecordSource σ} {sink : Sink δ} {f f' : Filling σ δ}
    (tagged : f.frames.pendingTag.isSome)
    (completed : run source sink contact f = (.ok (), f')) (nothing : f'.taken = []) :
    f'.frames.outlet.taken = f.frames.outlet.taken := by
  obtain ⟨last, frames, moves, closed, rfl⟩ := run_ok completed
  obtain ⟨written, taken, each⟩ := writeEach_of_moves moves
  rw [show last.taken = [] from nothing] at taken
  rw [(List.append_eq_nil_iff.mp taken.symm).2] at each
  obtain ⟨-, same⟩ := Prod.mk.inj each
  rw [← same, FrameWriter.finish, tagged, Bool.or_true, if_pos rfl] at closed
  split at closed
  · cases closed
  · exact FrameWriter.taken_of_flush closed

/-- What came of a whole filling that took nothing before. -/
structure Settles (contact : ContactId) (capacity limit : Nat) (noted : List Dealing)
    (before : Outlet (δ × List Motion)) (f : Filling (σ × List Dealing) (δ × List Motion))
    (dealings : List Dealing) (unfit : Option Record) : Prop where
  noted : f.mailbox.2 = noted ++ dealings
  concerns : ∀ dealing ∈ dealings, ∀ transport, dealing.Concerns ⟨contact, transport⟩
  generated : Dealing.generated dealings = f.taken ++ unfit.toList
  givenBack : Dealing.givenBack dealings = unfit.toList.map fun record => [record]
  large : ∀ record ∈ unfit,
    Frame.roomAfter capacity limit (Frame.ofRecords f.taken) < record.encode.length
  few : dealings.length * Frame.overhead ≤ capacity + 6 * Frame.overhead
  goes : Outlet.Goes 1 before f.frames.outlet

section

variable {context : Context} {device : δ × List Motion} {capacity limit : Nat}
  {begun : FrameWriter (δ × List Motion)} {mailbox : σ × List Dealing}
  {f' : Filling (σ × List Dealing) (δ × List Motion)}

theorem Deals.settles {dealings : List Dealing} {taken : List Record} {unfit : Option Record}
    (deals : Deals contact sink 4 { mailbox, frames := begun } ended dealings taken unfit)
    (made : FrameWriter.ofContext context device capacity limit = .ok begun)
    (held : f'.mailbox = ended.2.mailbox) (kept : f'.taken = ended.2.taken)
    (goes : Outlet.Goes 1 begun.outlet f'.frames.outlet) :
    Settles contact capacity limit mailbox.2 begun.outlet f' dealings unfit := by
  have all : f'.taken = taken := by rw [kept, deals.taken, List.nil_append]
  have remaining : begun.remaining = capacity := by
    obtain ⟨-, tag, key, -, -, fresh⟩ := (FrameWriter.make_eq_ok_iff ..).mp made
    rw [fresh]
  constructor
  case noted => rw [held, deals.noted]
  case concerns => exact deals.concerns
  case generated => rw [all, deals.generated]
  case givenBack => exact deals.givenBack
  case large =>
    intro record member
    obtain ⟨each, room⟩ := deals.large record member
    rwa [all, ← FrameWriter.payloadBudget_of_writeEach made each]
  case few =>
    have few : dealings.length * Frame.overhead + ended.2.frames.remaining ≤
        begun.remaining + (4 + 2) * Frame.overhead := deals.few
    omega
  case goes => exact goes

theorem settles_of_run {result : Except SessionFault Unit}
    (made : FrameWriter.ofContext context device capacity limit = .ok begun)
    (ran : run source.observed sink.observed contact { mailbox, frames := begun } =
      (result, f')) :
    ∃ dealings unfit, Settles contact capacity limit mailbox.2 begun.outlet f' dealings unfit := by
  rcases run_cases ran with
    ⟨fault, -, fills⟩ | ⟨more, last, closed, frames, fills, finished, -, rfl⟩
  · obtain ⟨dealings, taken, unfit, deals⟩ := deals_of_fills fills
    exact ⟨dealings, unfit, deals.settles made rfl rfl deals.goes⟩
  · obtain ⟨dealings, taken, unfit, deals⟩ := deals_of_fills fills
    have goes := FrameWriter.goes_finish sink last.frames
    rw [finished] at goes
    exact ⟨dealings, unfit, deals.settles made rfl rfl (deals.goes.trans goes)⟩

end

end Session.Filling

/-! ## Whole sessions -/

namespace Session

/-- Where every record that was handed out has gone to, and what the sink has taken. -/
inductive Accounted (route : Route) (capacity limit : Nat) (dealings : List Dealing)
    (taken : Bytes) : Except SessionFault SendOutcome → Prop where
  | completed {context : Context} {carried : List Record} {unfit : Option Record}
      (keyed : .keyed route (.ok (some context)) ∈ dealings)
      (generated : Dealing.generated dealings = carried ++ unfit.toList)
      (givenBack : Dealing.givenBack dealings = unfit.toList.map fun record => [record])
      (large : ∀ record ∈ unfit,
        Frame.roomAfter capacity limit (Frame.ofRecords carried) < record.encode.length)
      (empty : carried = [] → taken = [])
      (carries : carried ≠ [] →
        Carries context.secret context.stream context.role carried taken) :
      Accounted route capacity limit dealings taken (.ok (.completed taken.length carried.length))
  | aborted {reason : AbortReason} (generated : Dealing.generated dealings = [])
      (givenBack : Dealing.givenBack dealings = []) (empty : taken = []) :
      Accounted route capacity limit dealings taken (.ok (.aborted reason))
  | failed {fault : SessionFault} {others : List Record} {unfit : Option Record}
      (generated : Dealing.generated dealings = others ++ unfit.toList)
      (givenBack : Dealing.givenBack dealings =
        (unfit.toList.map fun record => [record]) ++ if others.isEmpty then [] else [others])
      (large : ∀ record ∈ unfit,
        Frame.roomAfter capacity limit (Frame.ofRecords others) < record.encode.length) :
      Accounted route capacity limit dealings taken (.error fault)

/-- What a session did until it released the writing end. -/
structure Behaved (route : Route) (capacity limit : Nat)
    (result : Except SessionFault SendOutcome) (dealings : List Dealing) (motions : List Motion) :
    Prop where
  accounted : Accounted route capacity limit dealings (motions.flatMap Motion.taken) result
  concerns : ∀ dealing ∈ dealings, dealing.Concerns route
  calls : dealings.length ≤ capacity / Frame.overhead + 8
  unreleased : ∀ motion ∈ motions, motion.isRelease = false
  writes : motions.length ≤ capacity + 1

namespace Sending

variable {source : RecordSource σ} {writer : WritingEnd δ} {route : Route}

private theorem noted_of_context {m m' : σ × List Dealing}
    {answer : Except MailboxFault (Option Context)}
    (asked : source.observed.context route m = (answer, m')) :
    m'.2 = m.2 ++ [.keyed route answer] := by
  obtain ⟨rfl, rfl⟩ := Prod.mk.inj asked
  rfl

private theorem behaved_of_unwritten {capacity limit : Nat}
    {answer : Except MailboxFault (Option Context)} {result : Except SessionFault SendOutcome}
    (accounted : Accounted route capacity limit [.keyed route answer] [] result) :
    Behaved route capacity limit result [.keyed route answer] [] := by
  refine ⟨accounted, by simp [Dealing.Concerns], ?_, by simp, Nat.zero_le _⟩
  exact Nat.le_trans (show 1 ≤ 8 by decide) (Nat.le_add_left 8 _)

private theorem accounted_of_unwritten {capacity limit : Nat}
    {answer : Except MailboxFault (Option Context)} {fault : SessionFault} :
    Accounted route capacity limit [.keyed route answer] [] (.error fault) := by
  have nothing : Dealing.generated [.keyed route answer] = [] ++ (none : Option Record).toList :=
    rfl
  exact .failed nothing rfl (by simp)

/-- What a sink was called for by a filling that began with nothing noted down. -/
private theorem writes_of_run {context : Context} {device : δ} {capacity limit : Nat}
    {sink : Sink δ} {contact : ContactId} {mailbox : σ × List Dealing}
    {begun : FrameWriter (δ × List Motion)} {f : Filling (σ × List Dealing) (δ × List Motion)}
    {result : Except SessionFault Unit}
    (made : FrameWriter.ofContext context (device, []) capacity limit = .ok begun)
    (ran : Filling.run source.observed sink.observed contact { mailbox, frames := begun } =
      (result, f)) :
    f.frames.outlet.taken = f.frames.outlet.device.2.flatMap Motion.taken ∧
      (∀ motion ∈ f.frames.outlet.device.2, motion.isRelease = false) ∧
      f.frames.outlet.device.2.length ≤ capacity + 1 := by
  obtain ⟨dealings, unfit, settles⟩ := Filling.settles_of_run made ran
  obtain ⟨-, tag, key, -, -, fresh⟩ := (FrameWriter.make_eq_ok_iff ..).mp made
  have bound := Filling.taken_run_le ran
  obtain ⟨motions, noted, kept, count, taken⟩ := settles.goes
  rw [show begun.outlet.device.2 = [] by rw [fresh], List.nil_append] at noted
  rw [show begun.outlet.taken = [] by rw [fresh]; rfl, List.nil_append] at taken
  rw [show begun.outlet.taken = [] by rw [fresh]; rfl,
    show begun.remaining = capacity by rw [fresh], taken, List.length_nil] at bound
  rw [noted]
  -- all calls but one take a byte, and no more bytes are taken than the capacity
  exact ⟨taken, kept, by omega⟩

private theorem behaved_of_filled {context : Context} {device : δ} {capacity limit : Nat}
    {sink : Sink δ} {mailbox : σ × List Dealing} {begun : FrameWriter (δ × List Motion)}
    {f : Filling (σ × List Dealing) (δ × List Motion)} {filled : Except SessionFault Unit}
    {dealings more : List Dealing} {unfit : Option Record}
    {answer : Except MailboxFault (Option Context)} {result : Except SessionFault SendOutcome}
    (made : FrameWriter.ofContext context (device, []) capacity limit = .ok begun)
    (ran : Filling.run source.observed sink.observed route.contact { mailbox, frames := begun } =
      (filled, f))
    (settles : Filling.Settles route.contact capacity limit mailbox.2 begun.outlet f dealings unfit)
    (one : more.length ≤ 1) (concerns : ∀ dealing ∈ more, dealing.Concerns route)
    (accounted : Accounted route capacity limit (.keyed route answer :: dealings ++ more)
      f.frames.outlet.taken result) :
    Behaved route capacity limit result (.keyed route answer :: dealings ++ more)
      f.frames.outlet.device.2 := by
  obtain ⟨taken, unreleased, writes⟩ := writes_of_run made ran
  rw [taken] at accounted
  refine ⟨accounted, ?_, ?_, unreleased, writes⟩
  · intro dealing member
    rcases List.mem_append.mp member with first | last
    · rcases List.mem_cons.mp first with rfl | member
      · rfl
      · exact settles.concerns dealing member route.transport
    · exact concerns dealing last
  · have few := settles.few
    simp only [Frame.overhead, List.length_append, List.length_cons] at few ⊢
    omega

private theorem behaved_of_completed {context : Context} {m : σ × List Dealing} {device : δ}
    {begun : FrameWriter (δ × List Motion)} {f : Filling (σ × List Dealing) (δ × List Motion)}
    (keyed : m.2 = [.keyed route (.ok (some context))])
    (made : FrameWriter.ofContext context (device, []) writer.capacity writer.maxFrameLength =
      .ok begun)
    (filled : Filling.run source.observed writer.sink.observed route.contact
      { mailbox := m, frames := begun } = (.ok (), f)) :
    Behaved route writer.capacity writer.maxFrameLength
      (.ok (.completed f.frames.written f.taken.length)) f.mailbox.2 f.frames.outlet.device.2 := by
  obtain ⟨dealings, unfit, settles⟩ := Filling.settles_of_run made filled
  obtain ⟨-, tag, key, -, -, fresh⟩ := (FrameWriter.make_eq_ok_iff ..).mp made
  have noted : f.mailbox.2 = .keyed route (.ok (some context)) :: dealings ++ [] := by
    rw [settles.noted, keyed, List.append_nil]
    rfl
  have tagged : begun.pendingTag.isSome := by simp [fresh]
  have empty : begun.outlet.taken = [] := by
    rw [fresh]
    rfl
  have held : f.frames.outlet.taken = f.frames.outlet.device.2.flatMap Motion.taken :=
    (writes_of_run made filled).1
  have written : f.frames.written = f.frames.outlet.taken.length := by
    have charged := (Filling.charged_of_run filled).written
    rw [empty, show begun.written = 0 by rw [fresh]] at charged
    simpa using charged.symm
  rw [noted, written]
  refine behaved_of_filled made filled settles (Nat.zero_le 1) (by simp) ?_
  rw [List.append_nil]
  refine .completed (List.mem_cons_self ..) settles.generated settles.givenBack settles.large ?_ ?_
  · intro none
    rw [Filling.taken_of_empty_run tagged filled none, empty]
  · intro some
    rw [held]
    exact Filling.carries_of_run writer.sink.observed_keeps rfl made filled some

/-- After a failure, the records that were taken are given back in one call, if there are any. -/
private theorem behaved_of_failed {context : Context} {m : σ × List Dealing} {device : δ}
    {begun : FrameWriter (δ × List Motion)} {f : Filling (σ × List Dealing) (δ × List Motion)}
    {fault : SessionFault} (keyed : m.2 = [.keyed route (.ok (some context))])
    (made : FrameWriter.ofContext context (device, []) writer.capacity writer.maxFrameLength =
      .ok begun)
    (filled : Filling.run source.observed writer.sink.observed route.contact
      { mailbox := m, frames := begun } = (.error fault, f)) :
    Behaved route writer.capacity writer.maxFrameLength (.error fault)
      (f.givenBack source.observed route.contact).2 f.frames.outlet.device.2 := by
  obtain ⟨dealings, unfit, settles⟩ := Filling.settles_of_run made filled
  have noted : f.mailbox.2 = .keyed route (.ok (some context)) :: dealings := by
    rw [settles.noted, keyed]
    rfl
  obtain ⟨more, one, concerns, last, none, back⟩ : ∃ more : List Dealing, more.length ≤ 1 ∧
      (∀ dealing ∈ more, dealing.Concerns route) ∧
      (f.givenBack source.observed route.contact).2 = f.mailbox.2 ++ more ∧
      Dealing.generated more = [] ∧
      Dealing.givenBack more = if f.taken.isEmpty then [] else [f.taken] := by
    simp only [Filling.givenBack]
    split
    · exact ⟨[], by simp, by simp, (List.append_nil _).symm, rfl, rfl⟩
    · refine ⟨_, ?_, ?_, Filling.noted_of_restore rfl, rfl, rfl⟩
      · exact Nat.le_refl 1
      · simp [Dealing.Concerns]
  rw [last, noted]
  refine behaved_of_filled made filled settles one concerns (.failed ?_ ?_ settles.large)
  · have all : Dealing.generated (.keyed route (.ok (some context)) :: dealings ++ more) =
        Dealing.generated dealings ++ Dealing.generated more := List.filterMap_append ..
    rw [all, none, List.append_nil, settles.generated]
  · have all : Dealing.givenBack (.keyed route (.ok (some context)) :: dealings ++ more) =
        Dealing.givenBack dealings ++ Dealing.givenBack more := List.filterMap_append ..
    rw [all, back, settles.givenBack]

theorem behaved_of_run {s : Sending σ δ} {after : Sending (σ × List Dealing) (δ × List Motion)}
    {result : Except SessionFault SendOutcome}
    (ran : s.observed.run source.observed writer.observed route = (result, after)) :
    Behaved route writer.capacity writer.maxFrameLength result after.mailbox.2 after.device.2 := by
  cases runs_of_run ran with
  | refused asked | unmade asked made =>
      rw [noted_of_context asked]
      exact behaved_of_unwritten accounted_of_unwritten
  | unkeyed asked | narrow asked =>
      rw [noted_of_context asked]
      exact behaved_of_unwritten (.aborted rfl rfl rfl)
  | completed asked made filled => exact behaved_of_completed (noted_of_context asked) made filled
  | failed asked made filled => exact behaved_of_failed (noted_of_context asked) made filled

/-- Whether the bytes of the connection may be delivered. -/
def completes : Except SessionFault SendOutcome → Bool
  | .ok outcome => outcome.isCompleted
  | .error _ => false

/-- Whatever the source and the writing end answer, a session calls them a bounded number of times,
    accounts for every record, and releases the writing end once, at last. Sending again is refused
    and calls nobody. -/
theorem send_behaved (source : RecordSource σ) (writer : WritingEnd δ) (route : Route)
    (mailbox : σ) (device : δ) :
    ∃ result after motions answer,
      Sending.send source writer route { mailbox, device } =
        (result, after.map Prod.fst Prod.fst) ∧
      Sending.send source.observed writer.observed route (observed { mailbox, device }) =
        (result, after) ∧
      after.device.2 = motions ++ [.released (!completes result) answer] ∧
      Behaved route writer.capacity writer.maxFrameLength result after.mailbox.2 motions ∧
      after.send source.observed writer.observed route = (.error .alreadyUsed, after) := by
  have same := send_observed source writer route { mailbox, device }
  rcases ran : run source.observed writer.observed route (observed { mailbox, device })
    with ⟨result, s⟩
  have behaved := behaved_of_run ran
  have sent : Sending.send source.observed writer.observed route (observed { mailbox, device }) =
      (result, { s with device := (writer.observed.dispose (!completes result) s.device).2,
                        phase := .disposed (!completes result) }) := by
    have phase : (observed { mailbox, device } : Sending (σ × List Dealing) _).phase = .start := rfl
    simp only [send, phase, ran]
    cases result <;> rfl
  rw [sent] at same
  exact ⟨result, _, s.device.2, _, same, sent, rfl, behaved, rfl⟩

end Sending

end Session

end Courier
