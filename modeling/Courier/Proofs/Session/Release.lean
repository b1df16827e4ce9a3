import Courier.Proofs.Session.Accountability

/-! # What the last release decides

A session has decided how it ends before it releases the writing end. The end
may still refuse then, as a directory does that cannot take the file, but
nobody looks at the answer: the session ends in the same way, and the records of
a completed connection count as sent. So what is completed was taken by the
transport exactly if the release went well, and records that were lost in this
way are not given back.
-/

namespace Courier.Session.Sending

variable {σ δ : Type} {source : RecordSource σ} {writer : WritingEnd δ} {route : Route}

theorem send_of_run {s after : Sending σ δ} {result : Except SessionFault SendOutcome}
    (new : s.phase = .start) (ran : s.run source writer route = (result, after)) :
    s.send source writer route =
      (result, { after with
        device := (writer.dispose (!completes result) after.device).2
        phase := .disposed (!completes result) }) := by
  simp only [send, new, ran]
  cases result <;> rfl

/-- Records count as sent only if the end of their connection was released: a session is completed
    only then, and otherwise gives back all that it was handed. -/
structure CountsIfTaken (result : Except SessionFault SendOutcome) (dealings : List Dealing)
    (answer : Except ConnectionFault Unit) : Prop where
  taken : completes result = true → answer = .ok ()
  returned : answer ≠ .ok () →
    (Dealing.givenBack dealings).flatten.Perm (Dealing.generated dealings)

variable {capacity limit : Nat} {dealings : List Dealing} {taken : Bytes}

/-- A completed session has given back nothing but the record that did not fit. -/
theorem unreturned_of_accounted {bytes records : Nat}
    (accounted : Accounted route capacity limit dealings taken (.ok (.completed bytes records))) :
    ∃ carried, carried.length = records ∧
      Dealing.generated dealings = carried ++ (Dealing.givenBack dealings).flatten := by
  cases accounted with
  | @completed context carried unfit keyed generated givenBack large empty carries =>
      refine ⟨carried, rfl, ?_⟩
      rw [generated, givenBack]
      cases unfit <;> rfl

/-- A session that is not completed has given back everything. -/
theorem returned_of_accounted {result : Except SessionFault SendOutcome}
    (accounted : Accounted route capacity limit dealings taken result)
    (incomplete : completes result = false) :
    (Dealing.givenBack dealings).flatten.Perm (Dealing.generated dealings) := by
  cases accounted with
  | completed => cases incomplete
  | aborted generated givenBack empty => rw [generated, givenBack, List.flatten_nil]
  | @failed fault others unfit generated givenBack large =>
      have back : (Dealing.givenBack dealings).flatten = unfit.toList ++ others := by
        rw [givenBack]
        cases unfit <;> cases others <;> simp
      rw [back, generated]
      exact List.perm_append_comm

/-- However the writing end answers when it is released, and whatever else it would do then: the
    session ends in the same way and leaves the same mailbox. If it is completed, its records have
    not been given back; if it is not, everything has. So what is promised of a completed session
    holds exactly if its release goes well. -/
theorem counts_whatever_release (source : RecordSource σ) (writer : WritingEnd δ) (route : Route)
    (mailbox : σ) (device : δ) :
    ∃ result after motions answer,
      Sending.send source.observed writer.observed route (observed { mailbox, device }) =
        (result, after) ∧
      after.device.2 = motions ++ [.released (!completes result) answer] ∧
      (∀ dispose, ∃ device',
        Sending.send source { writer with dispose } route { mailbox, device } =
          (result, { mailbox := after.mailbox.1, device := device',
                     phase := .disposed (!completes result) })) ∧
      (∀ bytes records, result = .ok (.completed bytes records) →
        ∃ carried, carried.length = records ∧ Dealing.generated after.mailbox.2 =
          carried ++ (Dealing.givenBack after.mailbox.2).flatten) ∧
      (completes result = false → (Dealing.givenBack after.mailbox.2).flatten.Perm
        (Dealing.generated after.mailbox.2)) ∧
      (CountsIfTaken result after.mailbox.2 answer ↔
        (completes result = true → answer = .ok ())) := by
  rcases ran : run source.observed writer.observed route (observed { mailbox, device })
    with ⟨result, s⟩
  have accounted := (behaved_of_run ran).accounted
  have plain : run source writer route { mailbox, device } =
      (result, s.map Prod.fst Prod.fst) := by
    have same : run source writer route { mailbox, device } = Prod.map id (map Prod.fst Prod.fst)
        (run source.observed writer.observed route (observed { mailbox, device })) :=
      run_mapped source.observed_maps writer.observed_maps (observed { mailbox, device })
    rw [ran] at same
    exact same
  refine ⟨result, _, s.device.2, _, send_of_run rfl ran, rfl, fun dispose => ?_, ?_,
    returned_of_accounted accounted, fun counts => counts.taken, fun taken => ⟨taken, ?_⟩⟩
  · -- nothing before the release looks at what the release would do
    have other : run source { writer with dispose } route { mailbox, device } =
        (result, s.map Prod.fst Prod.fst) := plain
    exact ⟨_, send_of_run rfl other⟩
  · rintro bytes records rfl
    exact unreturned_of_accounted accounted
  · intro failed
    refine returned_of_accounted accounted (Bool.eq_false_iff.mpr fun completed => ?_)
    exact failed (taken completed)

set_option maxRecDepth 100000 in
/-- The release of a connection with the only acknowledgement fails. The session is completed, and
    nothing is owed any more. -/
theorem counts_despite_failed_release :
    let owing := Mailbox.applyAll
      [.addContact ⟨1⟩ (.repeated 7) .bob [⟨0⟩],
        .receive ⟨1⟩ (.batch ⟨[[1]]⟩)] {}
    let writer := Memory.writingEnd { failsDispose := true } 1000
    ∃ result after motions,
      owing.Reachable ∧
      Sending.send Mailbox.source.observed writer.observed ⟨⟨1⟩, ⟨0⟩⟩
        (observed { mailbox := owing, device := {} }) = (result, after) ∧
      after.device.2 = motions ++ [.released false (Memory.released true)] ∧
      completes result = true ∧
      (owing.conversation? ⟨1⟩).map (·.acksOwed.length) = some 1 ∧
      (after.mailbox.1.conversation? ⟨1⟩).map (·.acksOwed.length) = some 0 ∧
      ¬CountsIfTaken result after.mailbox.2 (Memory.released true) := by
  intro owing writer
  rcases ran : run Mailbox.source.observed writer.observed ⟨⟨1⟩, ⟨0⟩⟩
    (observed { mailbox := owing, device := {} }) with ⟨result, s⟩
  have ended : completes (run Mailbox.source.observed writer.observed ⟨⟨1⟩, ⟨0⟩⟩
      (observed { mailbox := owing, device := {} })).1 = true ∧
      ((run Mailbox.source.observed writer.observed ⟨⟨1⟩, ⟨0⟩⟩
        (observed { mailbox := owing, device := {} })).2.mailbox.1.conversation? ⟨1⟩).map
          (·.acksOwed.length) = some 0 := by decide +kernel
  rw [ran] at ended
  obtain ⟨completed, paid⟩ := ended
  refine ⟨result, _, s.device.2, ⟨_, rfl⟩, send_of_run rfl ran, ?_, completed,
    by decide +kernel, paid, fun counts => ?_⟩
  · rw [completed]
    rfl
  · cases counts.taken completed

end Courier.Session.Sending
