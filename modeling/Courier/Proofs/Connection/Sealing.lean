import Courier.Connection.FrameWriter
import Courier.Proofs.Connection.Frame

/-! # The seals that a writer makes

A writer seals the header and the payload of a frame under the number of the
frame, and then offers both to the sink. Either the number is used up with them,
or the sink failed and the writer never seals again. So however a writer is
driven, and whatever its sinks do, no nonce occurs twice.
-/

namespace Courier

/-- One use of a frame key. -/
structure Seal where
  key : Secret
  nonce : Bytes
  text : Bytes
  deriving DecidableEq

/-- What comes of a seal. -/
def Seal.bytes (s : Seal) : Bytes :=
  s.key.sealed s.nonce [] s.text

namespace FrameWriter

variable {δ : Type}

/-- The seals that writing a frame makes; none if the frame is refused. -/
def sealsOfFrame (w : FrameWriter δ) (payload : Bytes) (final : Bool) : List Seal :=
  match w.refusal? payload.length with
  | some _ => []
  | none =>
      [⟨w.key, Frame.nonce w.frames .header, (Frame.Header.ofPayload payload.length final).encode⟩,
        ⟨w.key, Frame.nonce w.frames .payload, payload⟩]

/-- One thing to do with a writer. -/
inductive Call where
  | write (payload : Bytes) (final : Bool)
  | finish

/-- The writer after a call, whether or not it succeeded. -/
def Call.run (sink : Sink δ) : Call → FrameWriter δ → FrameWriter δ
  | write payload final, w => (w.write sink payload final).2
  | finish, w => (w.finish sink).2

/-- The seals that a call makes. Closing makes some only if an empty final frame is due. -/
def Call.seals : Call → FrameWriter δ → List Seal
  | write payload final, w => w.sealsOfFrame payload final
  | finish, w =>
      if w.faulted || w.finished || w.pendingTag.isSome then [] else w.sealsOfFrame [] true

/-- The seals that calls make one after the other, each with a sink of its own. -/
def sealsOfCalls : List (Sink δ × Call) → FrameWriter δ → List Seal
  | [], _ => []
  | (sink, call) :: calls, w => call.seals w ++ sealsOfCalls calls (call.run sink w)

/-- What a frame offers to the sink is made of its seals, and of nothing else sealed. -/
theorem nextBytes_eq_seals {w : FrameWriter δ} {payload : Bytes}
    (fits : w.refusal? payload.length = none) (final : Bool) :
    w.nextBytes payload final =
      w.pendingTag.elim [] Block.toBytes ++ (w.sealsOfFrame payload final).flatMap Seal.bytes := by
  simp [sealsOfFrame, fits, nextBytes, Frame.toBytes, Frame.sealPart, Seal.bytes]

theorem refusal?_of_faulted {w : FrameWriter δ} (faulted : w.faulted = true) (length : Nat) :
    w.refusal? length = some .faulted := by
  simp [refusal?, faulted]

/-- How a writer may go on after it made some seals: without any, or under the next number. -/
structure Advances (w w' : FrameWriter δ) (seals : List Seal) : Prop where
  key : w'.key = w.key
  faulted : w.faulted = true → seals = [] ∧ w'.faulted = true
  seals : seals = [] ∧ w'.frames = w.frames ∨
    (w.frames ≤ Frame.maxNumber ∧
      (∃ header payload, seals = [⟨w.key, Frame.nonce w.frames .header, header⟩,
        ⟨w.key, Frame.nonce w.frames .payload, payload⟩]) ∧
      (w'.frames = w.frames + 1 ∨ w'.faulted = true))

theorem advances_write (sink : Sink δ) (w : FrameWriter δ) (payload : Bytes) (final : Bool) :
    w.Advances (w.write sink payload final).2 (w.sealsOfFrame payload final) := by
  simp only [write, sealsOfFrame]
  cases refused : w.refusal? payload.length with
  | some fault => exact ⟨rfl, fun faulted => ⟨rfl, faulted⟩, .inl ⟨rfl, rfl⟩⟩
  | none =>
      have sound : w.faulted ≠ true := by
        intro faulted
        rw [refusal?_of_faulted faulted] at refused
        cases refused
      have range : w.frames ≤ Frame.maxNumber := by
        simp only [refusal?] at refused
        repeat' split at refused
        all_goals first | omega | cases refused
      rcases offered : sink.writeAll (w.nextBytes payload final) w.outlet with ⟨_ | _, outlet⟩
      · exact ⟨rfl, fun faulted => absurd faulted sound, .inr ⟨range, ⟨_, _, rfl⟩, .inr rfl⟩⟩
      · exact ⟨rfl, fun faulted => absurd faulted sound, .inr ⟨range, ⟨_, _, rfl⟩, .inl rfl⟩⟩

/-- Flushing makes no seals. -/
theorem Advances.flush {w w' : FrameWriter δ} {seals : List Seal} (advances : w.Advances w' seals)
    (sink : Sink δ) : w.Advances (w'.flush sink).2 seals := by
  have kept : (w'.flush sink).2.key = w'.key ∧ (w'.flush sink).2.frames = w'.frames ∧
      (w'.faulted = true → (w'.flush sink).2.faulted = true) := by
    simp only [FrameWriter.flush]
    split
    · exact ⟨rfl, rfl, id⟩
    · exact ⟨rfl, rfl, fun _ => rfl⟩
  obtain ⟨key, frames, faulted⟩ := kept
  refine ⟨key.trans advances.key, fun failed => ?_, ?_⟩
  · obtain ⟨none, still⟩ := advances.faulted failed
    exact ⟨none, faulted still⟩
  · rw [frames]
    exact advances.seals.imp_right fun ⟨range, made, next⟩ => ⟨range, made, next.imp_right faulted⟩

theorem advances_run (sink : Sink δ) (call : Call) (w : FrameWriter δ) :
    w.Advances (call.run sink w) (call.seals w) := by
  have idle : w.Advances w [] := ⟨rfl, fun faulted => ⟨rfl, faulted⟩, .inl ⟨rfl, rfl⟩⟩
  cases call with
  | write payload final => exact advances_write sink w payload final
  | finish =>
      simp only [Call.run, Call.seals, finish]
      by_cases faulted : w.faulted = true
      · simpa [faulted] using idle
      · by_cases closed : (w.finished || w.pendingTag.isSome) = true
        · simpa [faulted, closed] using idle.flush sink
        · have written := advances_write sink w [] true
          simp only [faulted, closed, Bool.false_or, Bool.false_eq_true, if_false]
          split
          next ok => exact (ok ▸ written).flush sink
          next failed => exact failed ▸ written

theorem sealsOfCalls_of_faulted {w : FrameWriter δ} (faulted : w.faulted = true)
    (calls : List (Sink δ × Call)) : w.sealsOfCalls calls = [] := by
  induction calls generalizing w with
  | nil => rfl
  | cons first calls ih =>
      obtain ⟨sink, call⟩ := first
      obtain ⟨none, still⟩ := (advances_run sink call w).faulted faulted
      rw [sealsOfCalls, none, ih still, List.append_nil]

/-- The nonces of all seals of a writer are those of its next number and of later ones. -/
theorem nonces_of_calls (w : FrameWriter δ) (calls : List (Sink δ × Call)) :
    ∀ made ∈ w.sealsOfCalls calls, made.key = w.key ∧ ∃ number part,
      w.frames ≤ number ∧ number ≤ Frame.maxNumber ∧ made.nonce = Frame.nonce number part := by
  induction calls generalizing w with
  | nil => exact fun made member => nomatch member
  | cons first calls ih =>
      obtain ⟨sink, call⟩ := first
      have advances := advances_run sink call w
      intro made member
      rw [sealsOfCalls, List.mem_append] at member
      rcases advances.seals with ⟨none, frames⟩ | ⟨range, ⟨header, payload, seals⟩, next⟩
      · rw [none] at member
        have later := ih _ made (by simpa using member)
        rwa [advances.key, frames] at later
      · rcases member with now | later
        · rw [seals] at now
          rcases List.mem_cons.mp now with rfl | now
          · exact ⟨rfl, w.frames, .header, Nat.le_refl _, range, rfl⟩
          · obtain rfl := List.mem_singleton.mp now
            exact ⟨rfl, w.frames, .payload, Nat.le_refl _, range, rfl⟩
        · rcases next with next | faulted
          · obtain ⟨key, number, part, above, below, same⟩ := ih _ made later
            rw [advances.key] at key
            exact ⟨key, number, part, by omega, below, same⟩
          · rw [sealsOfCalls_of_faulted faulted] at later
            cases later

/-- However a writer is driven, it never seals twice with one nonce. -/
theorem nodup_nonces (w : FrameWriter δ) (calls : List (Sink δ × Call)) :
    ((w.sealsOfCalls calls).map (·.nonce)).Nodup := by
  induction calls generalizing w with
  | nil => exact List.nodup_nil
  | cons first calls ih =>
      obtain ⟨sink, call⟩ := first
      have advances := advances_run sink call w
      rw [sealsOfCalls]
      rcases advances.seals with ⟨none, -⟩ | ⟨range, ⟨header, payload, seals⟩, next⟩
      · rw [none]
        exact ih _
      · have parts : Frame.nonce w.frames .header ≠ Frame.nonce w.frames .payload := by
          intro same
          cases (Frame.nonce_inj range range same).2
        have fresh : ∀ part, Frame.nonce w.frames part ∉
            (sealsOfCalls calls (call.run sink w)).map (·.nonce) := by
          intro part member
          obtain ⟨made, later, same⟩ := List.mem_map.mp member
          rcases next with next | faulted
          · obtain ⟨-, number, otherPart, above, below, nonce⟩ := nonces_of_calls _ _ made later
            have number_eq := (Frame.nonce_inj below range (nonce.symm.trans same)).1
            omega
          · rw [sealsOfCalls_of_faulted faulted] at later
            cases later
        rw [seals]
        simp only [List.cons_append, List.nil_append, List.map_cons, List.nodup_cons,
          List.mem_cons, not_or]
        exact ⟨⟨parts, fresh .header⟩, fresh .payload, ih _⟩

end FrameWriter

end Courier
