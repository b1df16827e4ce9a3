import Courier.Connection.Stream

/-! # What comes of whole reads and whole writes

A source yields a byte string if each of its answers is a front part of what is
left, empty only at the end; how long the answers are does not matter. A sink
keeps what it takes if it can be seen holding exactly the bytes that it
reported, whether or not it fails later. Reading a whole piece and writing a
whole piece are described from these two properties alone.
-/

namespace Courier

/-! ## Sources -/

namespace Source

variable {ρ : Type}

/-- In every state, `left` is what the source has still to give. -/
structure Yields (source : Source ρ) (left : ρ → Bytes) : Prop where
  read : ∀ limit device, 0 < limit → ∃ count device',
    count ≤ limit ∧ (left device ≠ [] → 0 < count) ∧
      source.read limit device = (.ok ((left device).take count), device') ∧
      left device' = (left device).drop count

variable {source : Source ρ} {left : ρ → Bytes}

/-- One answer: nothing only at the end, and otherwise some front part of what is left. -/
private theorem Yields.ask (yields : source.Yields left) (limit : Nat) (device : ρ)
    (asked : 0 < limit) : ∃ front device',
      source.ask limit device = (.ok front, device') ∧ front.length ≤ limit ∧
        left device = front ++ left device' ∧ (front = [] → left device = []) := by
  obtain ⟨count, device', bounded, progress, answer, after⟩ := yields.read limit device asked
  refine ⟨(left device).take count, device', ?_, ?_, ?_, ?_⟩
  · simp [Source.ask, answer, List.take_take, Nat.min_eq_right bounded]
  · rw [List.length_take]
    omega
  · rw [after, List.take_append_drop]
  · intro nothing
    rcases List.take_eq_nil_iff.mp nothing with none | none
    · exact Classical.byContradiction fun more => by
        have := progress more
        omega
    · exact none

/-- Reading a whole piece gives the front of what is left, or ends early with nothing left. -/
theorem readExact_eq (yields : source.Yields left) (count : Nat) (device : ρ) :
    ∃ device', source.readExact count device =
        (if count ≤ (left device).length then .ok ((left device).take count)
          else .error ⟨.unexpectedEnd, "failed to fill whole buffer"⟩, device') ∧
      left device' = (left device).drop count := by
  induction count using Nat.strongRecOn generalizing device with
  | ind count ih =>
    cases count with
    | zero => exact ⟨device, by simp [readExact]⟩
    | succ count =>
        obtain ⟨front, device', answer, bounded, cut, ended⟩ :=
          yields.ask (count + 1) device (Nat.succ_pos count)
        rw [readExact, answer]
        cases front with
        | nil =>
            refine ⟨device', ?_, ?_⟩
            · simp [ended rfl]
            · rw [List.nil_append] at cut
              rw [← cut, ended rfl, List.drop_nil]
        | cons byte bytes =>
            simp only [List.length_cons] at bounded
            obtain ⟨last, rest, after⟩ := ih (count - bytes.length) (by omega) device'
            refine ⟨last, ?_, ?_⟩
            · simp only [rest, cut, List.length_append, List.length_cons, List.take_append]
              have whole : (byte :: bytes).take (count + 1) = byte :: bytes :=
                List.take_of_length_le (by simpa using bounded)
              have remaining : count + 1 - (bytes.length + 1) = count - bytes.length := by omega
              rw [whole, remaining]
              by_cases enough : count - bytes.length ≤ (left device').length
              · rw [if_pos enough, if_pos (by omega)]
              · rw [if_neg enough, if_neg (by omega)]
            · have past : (byte :: bytes).drop (count + 1) = [] :=
                List.drop_of_length_le (by simpa using bounded)
              rw [after, cut, List.drop_append, past, List.nil_append, List.length_cons]
              congr 1
              omega

end Source

/-! ## Sinks -/

namespace Sink

variable {δ : Type} {sink : Sink δ}

/-- Offering bytes that are taken adds as many of them as were taken. -/
theorem offer_taken {data : Bytes} {outlet outlet' : Outlet δ} {count : Nat}
    (offered : sink.offer data outlet = (.ok count, outlet')) :
    outlet'.taken = outlet.taken ++ data.take count := by
  simp only [offer] at offered
  split at offered
  · simp only [Prod.mk.injEq, Except.ok.injEq] at offered
    obtain ⟨rfl, rfl⟩ := offered
    simp [Outlet.taken]
  · simp at offered

theorem offer_refused {data : Bytes} {outlet outlet' : Outlet δ} {fault : DeviceFault}
    (offered : sink.offer data outlet = (.error fault, outlet')) :
    outlet'.taken = outlet.taken := by
  simp only [offer] at offered
  split at offered
  · simp at offered
  · obtain ⟨-, rfl⟩ := Prod.mk.inj offered
    rfl

/-- A whole write that succeeds adds the whole piece to what was taken. -/
theorem writeAll_taken {data : Bytes} {outlet outlet' : Outlet δ}
    (written : sink.writeAll data outlet = (.ok (), outlet')) :
    outlet'.taken = outlet.taken ++ data := by
  fun_induction writeAll sink data outlet with
  | case1 outlet =>
      simp only [Prod.mk.injEq, true_and] at written
      simp [written]
  | case2 => simp at written
  | case3 outlet byte rest count between offered ih =>
      rw [ih written, offer_taken offered, List.take_succ_cons, List.append_assoc, List.cons_append,
        List.take_append_drop]
  | case4 => simp at written

/-- However a whole write ends, what was taken is a front part of the piece. -/
theorem writeAll_front (sink : Sink δ) (data : Bytes) (outlet : Outlet δ) :
    ∃ front, front <+: data ∧ (sink.writeAll data outlet).2.taken = outlet.taken ++ front := by
  fun_induction writeAll sink data outlet with
  | case1 outlet => exact ⟨[], List.prefix_refl [], (List.append_nil _).symm⟩
  | case2 outlet byte rest between offered =>
      refine ⟨[], List.nil_prefix, ?_⟩
      rw [offer_taken offered, List.take_zero]
  | case3 outlet byte rest count between offered ih =>
      obtain ⟨front, shorter, taken⟩ := ih
      refine ⟨(byte :: rest).take (count + 1) ++ front, ?_, ?_⟩
      · obtain ⟨after, whole⟩ := shorter
        refine ⟨after, ?_⟩
        rw [List.append_assoc, whole, List.take_succ_cons, List.cons_append, List.take_append_drop]
      · rw [taken, offer_taken offered, List.append_assoc]
  | case4 outlet byte rest fault between offered =>
      refine ⟨[], List.nil_prefix, ?_⟩
      rw [offer_refused offered, List.append_nil]

/-- A whole write that fails has taken less than the whole piece. -/
theorem writeAll_front_of_error {data : Bytes} {outlet outlet' : Outlet δ}
    {fault : DeviceFault} (failed : sink.writeAll data outlet = (.error fault, outlet')) :
    ∃ front rest, data = front ++ rest ∧ rest ≠ [] ∧ outlet'.taken = outlet.taken ++ front := by
  fun_induction writeAll sink data outlet with
  | case1 => cases failed
  | case2 outlet byte rest between offered =>
      obtain ⟨-, rfl⟩ := Prod.mk.inj failed
      refine ⟨[], byte :: rest, rfl, List.cons_ne_nil _ _, ?_⟩
      rw [offer_taken offered, List.take_zero]
  | case3 outlet byte rest count between offered ih =>
      obtain ⟨front, last, split, some, taken⟩ := ih failed
      refine ⟨(byte :: rest).take (count + 1) ++ front, last, ?_, some, ?_⟩
      · rw [List.append_assoc, ← split, List.take_succ_cons, List.cons_append,
          List.take_append_drop]
      · rw [taken, offer_taken offered, List.append_assoc]
  | case4 outlet byte rest fault between offered =>
      obtain ⟨-, rfl⟩ := Prod.mk.inj failed
      refine ⟨[], byte :: rest, rfl, List.cons_ne_nil _ _, ?_⟩
      rw [offer_refused offered, List.append_nil]

/-- A sink that never fails and always takes something. -/
structure Reliable (sink : Sink δ) : Prop where
  write : ∀ data device, data ≠ [] →
    ∃ count device', sink.write data device = (.ok (count + 1), device')
  flush : ∀ device, ∃ device', sink.flush device = (.ok (), device')

theorem Reliable.offer (reliable : sink.Reliable) {data : Bytes} (some : data ≠ [])
    (outlet : Outlet δ) : ∃ count outlet', sink.offer data outlet = (.ok (count + 1), outlet') := by
  obtain ⟨count, device', taken⟩ := reliable.write data outlet.device some
  exact ⟨count, _, by rw [Sink.offer, taken]⟩

theorem Reliable.writeAll (reliable : sink.Reliable) (data : Bytes) (outlet : Outlet δ) :
    ∃ outlet', sink.writeAll data outlet = (.ok (), outlet') := by
  fun_induction Sink.writeAll sink data outlet with
  | case1 outlet => exact ⟨outlet, rfl⟩
  | case2 outlet byte rest between offered =>
      obtain ⟨count, _, taken⟩ := reliable.offer (List.cons_ne_nil byte rest) outlet
      simp [taken] at offered
  | case3 outlet byte rest count between offered ih => exact ih
  | case4 outlet byte rest fault between offered =>
      obtain ⟨count, _, taken⟩ := reliable.offer (List.cons_ne_nil byte rest) outlet
      simp [taken] at offered

theorem Reliable.flushAll (reliable : sink.Reliable) (outlet : Outlet δ) :
    ∃ device', sink.flushAll outlet = (.ok (), { outlet with device := device' }) := by
  obtain ⟨device', flushed⟩ := reliable.flush outlet.device
  exact ⟨device', by rw [Sink.flushAll, flushed]⟩

/-- In every state, `held` is what the device was given so far. -/
structure Keeps (sink : Sink δ) (held : δ → Bytes) : Prop where
  taken : ∀ {data device count device'}, sink.write data device = (.ok count, device') →
    held device' = held device ++ data.take count
  refused : ∀ {data device fault device'}, sink.write data device = (.error fault, device') →
    held device' = held device
  flushed : ∀ device, held (sink.flush device).2 = held device

/-- The device holds what it held at first and then what it has taken since. -/
def Since (held : δ → Bytes) (first : Bytes) (outlet : Outlet δ) : Prop :=
  held outlet.device = first ++ outlet.taken

variable {held : δ → Bytes} {first : Bytes}

theorem Keeps.offer (keeps : sink.Keeps held) {data : Bytes} {outlet outlet' : Outlet δ}
    {result : Except DeviceFault Nat} (offered : sink.offer data outlet = (result, outlet'))
    (since : Since held first outlet) : Since held first outlet' := by
  simp only [Sink.offer] at offered
  split at offered
  next accepted =>
    obtain ⟨-, rfl⟩ := Prod.mk.inj offered
    rw [Since, keeps.taken accepted, since, Outlet.taken, Outlet.taken, Gathered.toBytes_add,
      List.append_assoc]
  next refused =>
    obtain ⟨-, rfl⟩ := Prod.mk.inj offered
    rw [Since, keeps.refused refused, since, Outlet.taken, Outlet.taken]

theorem Keeps.writeAll (keeps : sink.Keeps held) (data : Bytes) {outlet : Outlet δ}
    (since : Since held first outlet) : Since held first (sink.writeAll data outlet).2 := by
  fun_induction Sink.writeAll sink data outlet with
  | case1 outlet => exact since
  | case2 outlet byte rest between offered => exact keeps.offer offered since
  | case3 outlet byte rest count between offered ih =>
      exact ih (keeps.offer offered since)
  | case4 outlet byte rest fault between offered => exact keeps.offer offered since

theorem Keeps.flushAll (keeps : sink.Keeps held) {outlet : Outlet δ}
    (since : Since held first outlet) : Since held first (sink.flushAll outlet).2 := by
  rw [Since, Sink.flushAll, keeps.flushed, since, Outlet.taken, Outlet.taken]

end Sink

end Courier
