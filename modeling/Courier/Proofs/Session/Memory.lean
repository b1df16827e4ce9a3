import Courier.Proofs.Connection.Stream
import Courier.Session.Memory

/-! # Faithful ends, and the ends in memory

An end of a connection is faithful if the bytes of its device can be told at any
time: those taken so far, or those still to be given. An end in memory that was
not told to fail gives and takes everything, however few bytes it moves at a
time. A writing end holds exactly the bytes that it reported as taken, also when
it fails.
-/

namespace Courier

/-- What the device holds is what it has taken, also once the end is released. -/
structure WritingEnd.Faithful {δ : Type} (writer : WritingEnd δ) (held : δ → Bytes) : Prop where
  keeps : writer.sink.Keeps held
  released : ∀ exception device, held (writer.dispose exception device).2 = held device

/-- The device gives what is left of its bytes, and frames may be as long as they ever are. -/
structure ReadingEnd.Faithful {ρ : Type} (reader : ReadingEnd ρ) (left : ρ → Bytes) : Prop where
  yields : reader.source.Yields left
  room : Frame.maxLength ≤ reader.maxFrameLength

namespace Memory

/-- The source was not told to fail, and it moves bytes whenever it is asked. -/
structure ReadLimits.Harmless (limits : ReadLimits) : Prop where
  neverFails : limits.failAt = none
  moves : limits.chunk ≠ some 0

/-- The sink was not told to fail, and it moves bytes whenever it is asked. -/
structure WriteLimits.Harmless (limits : WriteLimits) : Prop where
  neverFails : limits.failAfter = none
  neverStops : limits.zeroAfter = none
  moves : limits.chunk ≠ some 0
  flushes : limits.failsFlush = false

theorem ReadLimits.harmless_default : ({} : ReadLimits).Harmless :=
  ⟨rfl, by simp⟩

theorem WriteLimits.harmless_default : ({} : WriteLimits).Harmless :=
  ⟨rfl, rfl, by simp, rfl⟩

theorem source_yields {limits : ReadLimits} (harmless : limits.Harmless) :
    (source limits).Yields Inbound.rest := by
  obtain ⟨neverFails, moves⟩ := harmless
  constructor
  intro limit inb asked
  have moved : limits.chunk.elim limit (min limit) ≤ limit ∧
      0 < limits.chunk.elim limit (min limit) := by
    cases chunk : limits.chunk with
    | none => exact ⟨Nat.le_refl _, asked⟩
    | some count =>
        have some : count ≠ 0 := by
          rintro rfl
          exact moves chunk
        simp only [Option.elim_some]
        omega
  refine ⟨limits.chunk.elim limit (min limit),
    { inb with
      rest := inb.rest.drop (limits.chunk.elim limit (min limit))
      consumed := inb.consumed + (inb.rest.take (limits.chunk.elim limit (min limit))).length },
    moved.1, fun _ => moved.2, ?_, rfl⟩
  simp [source, neverFails]

theorem sink_reliable {limits : WriteLimits} (harmless : limits.Harmless) :
    (sink limits).Reliable := by
  obtain ⟨neverFails, neverStops, moves, flushes⟩ := harmless
  constructor
  · intro data out some
    have positive : 0 < data.length := List.length_pos_iff.mpr some
    cases chunk : limits.chunk with
    | none =>
        refine ⟨data.length - 1, { out with gathered := out.gathered.add data }, ?_⟩
        simp [sink, WriteLimits.room?, neverFails, neverStops, chunk, Option.merge]
        omega
    | some count =>
        have some : count ≠ 0 := by
          rintro rfl
          exact moves chunk
        refine ⟨min count data.length - 1,
          { out with gathered := out.gathered.add (data.take count) }, ?_⟩
        simp [sink, WriteLimits.room?, neverFails, neverStops, chunk, Option.merge]
        omega
  · intro out
    exact ⟨out, by simp [sink, flushes]⟩

theorem sink_keeps (limits : WriteLimits) : (sink limits).Keeps Outbound.bytes where
  taken := by
    intro data out count out' written
    simp only [sink] at written
    split at written
    · cases written
    next room _ =>
      simp only [Prod.mk.injEq, Except.ok.injEq] at written
      obtain ⟨rfl, rfl⟩ := written
      cases room <;> simp [Outbound.bytes]
  refused := by
    intro data out fault out' written
    simp only [sink] at written
    split at written
    · rw [← (Prod.mk.inj written).2]
    · cases written
  flushed := by
    intro out
    simp only [sink]
    split <;> rfl

theorem writingEnd_faithful (limits : WriteLimits) (capacity frameLimit : Nat) :
    (writingEnd limits capacity frameLimit).Faithful Outbound.bytes :=
  ⟨sink_keeps limits, fun _ _ => rfl⟩

theorem readingEnd_faithful {limits : ReadLimits} (harmless : limits.Harmless) :
    (readingEnd limits).Faithful Inbound.rest :=
  ⟨source_yields harmless, Nat.le_refl _⟩

end Memory

end Courier
