import Courier.Proofs.Command.Leaving
import Courier.Proofs.Session.Hearing
import Courier.Proofs.Session.Receipt

/-! # Picking up connections at a depot

A look at the depot finds every connection once, in an order that the random
names make. A party reads those that the other side left, as far as its window
goes, and does not recognise its own. So it goes through all of them, whatever
their order.
-/

namespace Courier.Command

open Session (ReceiveOutcome)

variable {depot : Depot} {party : Party} {s : Shelf} {route : Route} {secret : Secret} {role : Role}
  (lines : List String)

/-- One connection is received, and its file is removed if its tag was recognised. -/
theorem runs_receiveAll_cons (received : Nat) {arrival : Depot.Arrival}
    (rest : List Depot.Arrival) {outcome : ReceiveOutcome} {device : Memory.Inbound}
    {party' : Party}
    (read : party.receive (Memory.readingEnd {}) { rest := arrival.bytes } =
      (.ok outcome, device, party')) :
    ∃ between, between.files.entries.Sublist s.files.entries ∧ between.draws = s.draws ∧
      ∀ answer lines' after, Runs (receiveAll (received + outcome.isCompleted.toNat) rest party')
        lines between answer lines' after →
        Runs (receiveAll received (arrival :: rest) party) lines s answer lines' after := by
  have told : device.disposed.getD (true, false) = (false, outcome.isCompleted) := by
    rw [Party.disposed_of_receive read, Option.getD_some]
  obtain ⟨released, between, disposed, sublist, draws⟩ : ∃ released between,
      (arrival.dispose false outcome.isCompleted : Shelving _).run s = (released, between) ∧
        between.files.entries.Sublist s.files.entries ∧ between.draws = s.draws := by
    cases recognised : outcome.isCompleted with
    | false => exact ⟨_, s, Depot.run_dispose_kept (by rfl) arrival s, .refl _, rfl⟩
    | true =>
        obtain ⟨released, disposed⟩ := Depot.run_dispose_consumed arrival s
        exact ⟨released, _, disposed, List.filter_sublist, rfl⟩
  refine ⟨between, sublist, draws, fun answer lines' after rest => ?_⟩
  rw [receiveAll]
  simp only [read, told]
  refine (Runs.lift disposed lines).bind ((Runs.orFail_ok _ lines between).bind ?_)
  cases outcome with
  | completed => exact rest
  | unrecognised => exact rest

/-- Connections that the party meets are all received, whatever their order. The party reads the
    letters among them as it would elsewhere. -/
theorem runs_receiveAll {arrivals : List Depot.Arrival} (hears : party.Hears route secret role)
    (meets : ∀ arrival ∈ arrivals, Party.Meets secret role arrival.bytes) (received : Nat) :
    ∃ (outcomes : List ReceiveOutcome) (last : Party) (after : Shelf),
      Runs (receiveAll received arrivals party) lines s
        (.ok (received + outcomes.countP (·.isCompleted), last)) lines after ∧
      last.Hears route secret role ∧ after.files.entries.Sublist s.files.entries ∧
      after.draws = s.draws ∧
      ∀ letters : List Letter, letters.map (·.bytes) = arrivals.map (·.bytes) →
        party.Reads letters (outcomes.map .ok) last := by
  induction arrivals generalizing received party s with
  | nil =>
      refine ⟨[], party, s, .pure _ lines s, hears, .refl _, rfl, fun letters none => ?_⟩
      obtain rfl := List.map_eq_nil_iff.mp none
      exact .nil party
  | cons arrival arrivals ih =>
      obtain ⟨first, others⟩ := List.forall_mem_cons.mp meets
      obtain ⟨outcome, device, party', read, hears'⟩ := hears.receive first
      obtain ⟨between, fewer, same, goesOn⟩ :=
        runs_receiveAll_cons (s := s) lines received arrivals read
      obtain ⟨outcomes, last, after, rest, still, fewer', same', reads⟩ :=
        ih hears' others (received + outcome.isCompleted.toNat) (s := between)
      refine ⟨outcome :: outcomes, last, after, ?_, still, fewer'.trans fewer, same'.trans same,
        fun letters whole => ?_⟩
      · have count : (outcome :: outcomes).countP (·.isCompleted) =
            outcome.isCompleted.toNat + outcomes.countP (·.isCompleted) := by
          rw [List.countP_cons]
          cases outcome.isCompleted <;> simp [Nat.add_comm]
        rw [count, ← Nat.add_assoc]
        exact goesOn _ _ _ rest
      · cases letters with
        | nil => cases whole
        | cons letter letters =>
            obtain ⟨bytes, later⟩ := List.cons.inj whole
            exact .cons (Memory.readingEnd_faithful Memory.ReadLimits.harmless_default) bytes.symm
              read (reads letters later)

/-- A look finds each content as often as there are files with it. -/
theorem Stocked.poll {contents : List Bytes} (stocked : Stocked depot.directory contents s)
    (running : depot.running = true) :
    ∃ arrivals, (depot.poll : Shelving _).run s = (.ok arrivals, s) ∧
      (arrivals.map (·.bytes)).Perm contents := by
  obtain ⟨arrivals, names, polled, sorted, paths, member⟩ := Depot.run_poll depot running s
  refine ⟨arrivals, polled, .trans ?_ stocked.contents⟩
  let entry (a : Depot.Arrival) : String × Bytes := (a.path, a.bytes)
  have distinct : arrivals.Nodup := by
    refine .of_map (·.path) ?_
    rw [paths]
    exact (sorted.imp ne_of_lt).map _ fun _ _ different same =>
      different (FileStore.join_inj.mp same)
  have injective : Function.Injective entry := by
    rintro ⟨path, bytes⟩ ⟨path', bytes'⟩ same
    obtain ⟨rfl, rfl⟩ := Prod.mk.inj same
    rfl
  have same : (arrivals.map entry).Perm s.files.entries := by
    have keys : (s.files.entries.map (·.1)).Nodup := Table.nodup_keys s.files
    refine (List.perm_ext_iff_of_nodup (distinct.map injective) keys.of_map).mpr fun file => ?_
    obtain ⟨path, bytes⟩ := file
    rw [← Table.find?_eq_some_iff, List.mem_map]
    constructor
    · rintro ⟨⟨path', bytes'⟩, arrived, same⟩
      obtain ⟨rfl, rfl⟩ := Prod.mk.inj same
      exact ((member path' bytes').mp arrived).2
    · intro found
      have key := (Table.mem_keys_iff ..).mpr ⟨bytes, found⟩
      exact ⟨⟨path, bytes⟩, (member path bytes).mpr ⟨stocked.connections path key, found⟩, rfl⟩
  have contents := same.map (·.2)
  rwa [List.map_map] at contents

/-- A party picks up whatever it meets at the depot. The letters among it are read in some order. -/
theorem runs_pickUp {contents : List Bytes} (running : depot.running = true)
    (hears : party.Hears route secret role) (stocked : Stocked depot.directory contents s)
    (meets : ∀ bytes ∈ contents, Party.Meets secret role bytes) :
    ∃ (outcomes : List ReceiveOutcome) (last : Party) (after : Shelf),
      Runs (pickUp depot party) lines s (.ok (outcomes.countP (·.isCompleted), last)) lines after ∧
      last.Hears route secret role ∧ after.files.entries.Sublist s.files.entries ∧
      after.draws = s.draws ∧
      ∀ letters : List Letter, contents.Perm (letters.map (·.bytes)) →
        ∃ order, order.Perm letters ∧ party.Reads order (outcomes.map .ok) last := by
  obtain ⟨arrivals, polled, found⟩ := stocked.poll running
  have all : ∀ arrival ∈ arrivals, Party.Meets secret role arrival.bytes :=
    fun arrival member => meets _ (found.mem_iff.mp (List.mem_map_of_mem member))
  obtain ⟨outcomes, last, after, ran, still, fewer, same, reads⟩ :=
    runs_receiveAll (s := s) lines hears all 0
  refine ⟨outcomes, last, after, ?_, still, fewer, same, fun letters whole => ?_⟩
  · rw [Nat.zero_add] at ran
    exact (Runs.lift polled lines).bind ((Runs.orFail_ok _ lines s).bind ran)
  · have both : (arrivals.map (·.bytes)).Perm (letters.map (·.bytes)) := found.trans whole
    obtain ⟨order, spelled, perm⟩ :=
      (congrFun₂ (List.eq_map_comp_perm Letter.bytes) _ _).mpr both
    exact ⟨order, perm, reads order spelled.symm⟩

end Courier.Command
