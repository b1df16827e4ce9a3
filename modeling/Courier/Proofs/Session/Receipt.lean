import Courier.Party
import Courier.Proofs.Connection.Reading
import Courier.Session.Memory

/-! # What a reading end is told

Receiving a connection reads from its end and then releases it once. What
reading does not touch is therefore the same up to the release, and an end in
memory is told by it whether the session failed and whether it recognised the
tag.
-/

namespace Courier

variable {ρ α : Type}

/-- Reading does not touch this part of the device. -/
def Source.Spares (source : Source ρ) (part : ρ → α) : Prop :=
  ∀ count device, part (source.read count device).2 = part device

variable {source : Source ρ} {part : ρ → α}

namespace Source.Spares

theorem ask (spares : source.Spares part) (limit : Nat) (device : ρ) :
    part (source.ask limit device).2 = part device := by
  have same := spares limit device
  simp only [Source.ask]
  split <;> simpa [*] using same

theorem readExact (spares : source.Spares part) (count : Nat) (device : ρ) :
    part (source.readExact count device).2 = part device := by
  fun_induction Source.readExact source count device with
  | case1 => rfl
  | case2 device count between asked => 
      have same := spares.ask (count + 1) device
      rwa [asked] at same
  | case3 device count byte bytes between asked rest last read ih =>
      have same := spares.ask (count + 1) device
      rw [asked] at same
      rw [read] at ih
      exact ih.trans same
  | case4 device count byte bytes between asked fault last read ih =>
      have same := spares.ask (count + 1) device
      rw [asked] at same
      rw [read] at ih
      exact ih.trans same
  | case5 device count fault between asked =>
      have same := spares.ask (count + 1) device
      rwa [asked] at same

theorem readPart (spares : source.Spares part) (r : FrameReader ρ) (piece : Frame.Part)
    (length : Nat) (device : ρ) : part (r.readPart source piece length device).2 = part device := by
  have same := spares.readExact (length + CounterMode.codeLength) device
  simp only [FrameReader.readPart]
  generalize source.readExact (length + CounterMode.codeLength) device = answer at same ⊢
  rcases answer with ⟨fault | bytes, after⟩
  · exact same
  · dsimp only
    cases Frame.openPart? r.key r.frames piece bytes <;> exact same

theorem openNext (spares : source.Spares part) (r : FrameReader ρ) :
    part (r.openNext source).2 = part r.device := by
  have header := spares.readPart r .header Frame.headerLength r.device
  simp only [FrameReader.openNext]
  split
  · rfl
  · generalize r.readPart source .header Frame.headerLength r.device = answer at header ⊢
    rcases answer with ⟨fault | bytes, device⟩
    · exact header
    · dsimp only
      cases Frame.Header.decode bytes with
      | error fault => exact header
      | ok decoded =>
          have payload := spares.readPart r .payload decoded.length.toNat device
          dsimp only
          split
          · exact header
          · generalize r.readPart source .payload decoded.length.toNat device = answer at payload ⊢
            rcases answer with ⟨fault | content, after⟩ <;> exact payload.trans header

theorem next (spares : source.Spares part) (r : FrameReader ρ) :
    part (r.next source).2.device = part r.device := by
  have opened := spares.openNext r
  simp only [FrameReader.next]
  split
  · rfl
  · split
    · rfl
    · generalize r.openNext source = answer at opened ⊢
      rcases answer with ⟨fault | frame, device⟩ <;> exact opened

theorem delivery {σ : Type} (spares : source.Spares part) (receiver : RecordReceiver σ)
    (contact : ContactId) (d : Session.Delivery σ ρ) :
    part (d.run receiver source contact).2.frames.device = part d.frames.device := by
  have same := fun frames => spares.next frames
  fun_induction Session.Delivery.run receiver source contact d with
  | case1 d fault frames answered | case2 d frames answered
  | case4 d payload frames answered | case5 d payload frames answered =>
      rw [← same d.frames, answered]
  | case3 d payload frames answered _ ih | case6 d payload frames answered _ _ _ _ _ ih =>
      rw [ih, ← same d.frames, answered]

variable {κ σ : Type} {reader : ReadingEnd ρ}

theorem identify (spares : reader.source.Spares part) (recogniser : Recogniser κ)
    (s : Session.Receiving κ σ ρ) :
    part (s.identify recogniser reader).2.device = part s.device := by
  have same := spares.readExact Tag.length s.device
  simp only [Session.Receiving.identify, Tag.read]
  generalize reader.source.readExact Tag.length s.device = answer at same ⊢
  rcases answer with ⟨fault | bytes, device⟩
  · exact same
  · dsimp only
    rcases recogniser.recognise (.ofBytes bytes) s.recogniser with ⟨fault | context, after⟩ <;>
      exact same

theorem deliver (spares : reader.source.Spares part) (receiver : RecordReceiver σ)
    (context : Context) (s : Session.Receiving κ σ ρ) :
    part (s.deliver receiver reader context).2.device = part s.device := by
  simp only [Session.Receiving.deliver]
  cases made : FrameReader.ofContext context s.device reader.maxFrameLength with
  | error fault => rfl
  | ok frames =>
      have begun : frames.device = s.device := by
        obtain ⟨-, key, -, rfl⟩ := (FrameReader.make_eq_ok_iff ..).mp made
        rfl
      have same := spares.delivery receiver context.route.contact { mailbox := s.mailbox, frames }
      rw [← begun, ← same]
      dsimp only
      rcases Session.Delivery.run receiver reader.source context.route.contact
        { mailbox := s.mailbox, frames } with ⟨fault | done, d⟩ <;> rfl

end Source.Spares

/-- Reading from memory releases nothing. -/
theorem Memory.source_spares (limits : ReadLimits) :
    (Memory.source limits).Spares Inbound.disposals := by
  intro count device
  simp only [Memory.source]
  split <;> rfl

namespace Session

/-- Whether the tag of the connection was recognised. -/
def ReceiveOutcome.isCompleted : ReceiveOutcome → Bool
  | completed _ _ => true
  | unrecognised => false

/-- A session that does not fail tells the reading end so, and whether it recognised the tag. -/
theorem Receiving.release_of_receive {κ σ : Type} {recogniser : Recogniser κ}
    {receiver : RecordReceiver σ} {reader : ReadingEnd ρ} {s s' : Receiving κ σ ρ}
    {outcome : ReceiveOutcome} (spares : reader.source.Spares part)
    (received : s.receive recogniser receiver reader = (.ok outcome, s')) :
    ∃ device, part device = part s.device ∧
      s'.device = (reader.dispose false outcome.isCompleted device).2 := by
  simp only [receive] at received
  split at received
  · cases received
  · have first := spares.identify recogniser { s with used := true }
    rcases identified : identify recogniser reader { s with used := true } with
      ⟨fault | context, middle⟩ <;> rw [identified] at first received
    · cases received
    · cases context with
      | none =>
          obtain ⟨rfl, rfl⟩ := received
          exact ⟨middle.device, first, rfl⟩
      | some context =>
          have second := spares.deliver receiver context middle
          dsimp only at received
          rcases delivered : deliver receiver reader context middle with ⟨fault | count, last⟩ <;>
            rw [delivered] at second received
          · cases received
          · obtain ⟨rfl, rfl⟩ := received
            exact ⟨last.device, second.trans first, rfl⟩

end Session

/-- An end in memory is told whether the tag was recognised. -/
theorem Party.disposed_of_receive {p p' : Party} {bytes : Bytes} {device : Memory.Inbound}
    {outcome : Session.ReceiveOutcome}
    (received : p.receive (Memory.readingEnd {}) { rest := bytes } = (.ok outcome, device, p')) :
    device.disposed = some (false, outcome.isCompleted) := by
  have spares : (Memory.readingEnd {}).source.Spares Memory.Inbound.disposals :=
    Memory.source_spares {}
  simp only [Party.receive] at received
  rcases ran : (p.receiving { rest := bytes }).receive Roster.recogniser Mailbox.receiver
    (Memory.readingEnd {}) with ⟨result, s⟩
  rw [ran] at received
  obtain ⟨rfl, rfl, rfl⟩ := received
  obtain ⟨last, untouched, released⟩ := Session.Receiving.release_of_receive spares ran
  have none : last.disposals = [] := untouched
  rw [released]
  simp [Memory.Inbound.disposed, Memory.readingEnd, none]

end Courier
