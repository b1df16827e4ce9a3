import Courier.Proofs.Depot.Shelf
import Mathlib.Data.List.Nodup
import Mathlib.Data.String.Basic

/-! # What the calls of a depot do

On a shelf a call changes at most two files: the partial one of a deposit, and
the finished one that takes a name which nothing has. The only fault is that no
unused name was drawn.
-/

namespace Courier.Depot

open FileStore Courier.Shelf

/-- All names that were drawn are in use. -/
def noName : ConnectionFault := .device "no unused name"

/-! ## Names -/

theorem run_drawStem (s : Shelf) : (drawStem : Shelving String).run s = (s.stem 0, s.skip 1) := rfl

/-- An unfinished connection gets a partial file of its own, unless all names that are drawn have
    one. -/
theorem run_createPartial (directory : String) (tries : Nat) (s : Shelf) :
    (∃ draws, (createPartial directory tries : Shelving _).run s =
        (.error noName, { s with draws }) ∧
      ∀ n < tries, (s.files.find? (Deposit.path { directory, stem := s.stem n })).isSome) ∨
      ∃ n, s.files.find? (Deposit.path { directory, stem := s.stem n }) = none ∧
        (createPartial directory tries : Shelving _).run s = (.ok { directory, stem := s.stem n },
          { s.skip (n + 1) with
            files := s.files.insert (Deposit.path { directory, stem := s.stem n }) [] }) := by
  induction tries generalizing s with
  | zero => exact .inl ⟨s.draws, rfl, fun n below => absurd below (Nat.not_lt_zero n)⟩
  | succ tries ih =>
      by_cases used : (s.files.find? (Deposit.path { directory, stem := s.stem 0 })).isSome = true
      · have again : (createPartial directory (tries + 1) : Shelving _).run s =
            (createPartial directory tries : Shelving _).run (s.skip 1) := by
          have files : (s.skip 1).files = s.files := rfl
          simp only [createPartial, run_bind, run_drawStem, run_createNew, files, used, if_true]
          rfl
        rw [again]
        rcases ih (s.skip 1) with ⟨draws, failed, all⟩ | ⟨n, unused, made⟩
        · refine .inl ⟨draws, failed, fun n below => ?_⟩
          cases n with
          | zero => exact used
          | succ n =>
              rw [Nat.add_comm n 1, ← stem_skip]
              exact all n (by omega)
        · refine .inr ⟨1 + n, unused, made.trans ?_⟩
          rw [skip_skip, stem_skip, Nat.add_assoc]
          rfl
      · refine .inr ⟨0, by simpa using used, ?_⟩
        have files : (s.skip 1).files = s.files := rfl
        simp only [createPartial, run_bind, run_drawStem, run_createNew, files, used,
          Bool.false_eq_true, if_false, run_pure]

theorem run_deposit (depot : Depot) (running : depot.running = true) (s : Shelf) :
    (∃ draws, (deposit depot : Shelving _).run s = (.error noName, { s with draws }) ∧
      ∀ n < maxTries, (s.files.find?
        (Deposit.path { directory := depot.directory, stem := s.stem n })).isSome) ∨
      ∃ n, s.files.find? (Deposit.path { directory := depot.directory, stem := s.stem n }) = none ∧
        (deposit depot : Shelving _).run s =
          (.ok (some { directory := depot.directory, stem := s.stem n }), { s.skip (n + 1) with
            files := s.files.insert
              (Deposit.path { directory := depot.directory, stem := s.stem n }) [] }) := by
  rcases run_createPartial depot.directory maxTries s with ⟨draws, failed, all⟩ |
    ⟨n, unused, made⟩
  · refine .inl ⟨draws, ?_, all⟩
    simp only [deposit, running, if_true, run_bind, failed, run_pure, Except.map]
  · refine .inr ⟨n, unused, ?_⟩
    simp only [deposit, running, if_true, run_bind, made, run_pure, Except.map]

/-- A finished connection gets a path that nothing has, unless its name and all that are drawn are
    in use. -/
theorem run_unusedPath (directory : String) (tries : Nat) {stem : String} (drawn : IsStem stem)
    (s : Shelf) :
    (∃ draws, (unusedPath directory tries stem : Shelving _).run s =
        (.error noName, { s with draws }) ∧
      (0 < tries →
        (s.files.find? (join directory (fileName stem finishedExtension))).isSome) ∧
      ∀ n, n + 1 < tries →
        (s.files.find? (join directory (fileName (s.stem n) finishedExtension))).isSome) ∨
      ∃ path n, IsConnection directory path ∧ s.files.find? path = none ∧
        (unusedPath directory tries stem : Shelving _).run s = (.ok path, s.skip n) := by
  induction tries generalizing stem s with
  | zero =>
      exact .inl ⟨s.draws, rfl, fun some => absurd some (Nat.lt_irrefl 0),
        fun n below => absurd below (Nat.not_lt_zero _)⟩
  | succ tries ih =>
      cases there : (s.files.find? (join directory (fileName stem finishedExtension))).isSome with
      | true =>
          have again : (unusedPath directory (tries + 1) stem : Shelving _).run s =
              (unusedPath directory tries (s.stem 0) : Shelving _).run (s.skip 1) := by
            simp only [unusedPath, run_bind, run_isThere, there, run_drawStem]
          rw [again]
          rcases ih (isStem_stem s 0) (s.skip 1) with ⟨draws, failed, first, others⟩ |
            ⟨path, n, connection, unused, found⟩
          · refine .inl ⟨draws, failed, fun _ => rfl, fun n below => ?_⟩
            cases n with
            | zero => exact first (by omega)
            | succ n =>
                rw [Nat.add_comm n 1, ← stem_skip]
                exact others n (by omega)
          · exact .inr ⟨path, 1 + n, connection, unused, by rw [found, skip_skip]⟩
      | false =>
          refine .inr ⟨_, 0, drawn.isConnection directory, by simpa using there, ?_⟩
          simp only [unusedPath, run_bind, run_isThere, there, run_pure, skip_zero]

/-! ## Releasing a deposit -/

variable {d : Deposit} {s : Shelf} {bytes : Bytes}

theorem run_dispose_of_released (released : d.released = true) (exception : Bool) :
    (d.dispose exception : Shelving _).run s = ((.ok (), d), s) := by
  simp only [Deposit.dispose, released, if_true, run_pure]

/-- With an exception the partial file goes. -/
theorem run_dispose_exception (open_ : d.released = false)
    (there : s.files.find? d.path = some bytes) :
    (d.dispose true : Shelving _).run s = ((.ok (), { d with released := true }),
      { s with files := s.files.erase d.path }) := by
  simp only [Deposit.dispose, open_, run_bind, run_remove there, run_pure, Bool.false_eq_true,
    if_false, if_true]

/-- A connection without bytes goes, too. -/
theorem run_dispose_empty (open_ : d.released = false) (empty : d.bytes = [])
    (there : s.files.find? d.path = some bytes) :
    (d.dispose false : Shelving _).run s = ((.ok (), { d with released := true }),
      { s with files := (s.files.insert d.path []).erase d.path }) := by
  have removed := run_remove (s := { s with files := s.files.insert d.path [] })
    (Table.find?_insert_self s.files d.path [])
  simp only [Deposit.dispose, open_, run_bind, run_fill there, run_pure, Bool.false_eq_true,
    if_false, empty, List.isEmpty_nil, if_true, removed]

/-- A connection with bytes gets its content and then, if there is an unused one, a finished
    name. -/
theorem run_dispose_finished (open_ : d.released = false) (drawn : IsStem d.stem)
    (some : d.bytes ≠ []) (there : s.files.find? d.path = Option.some bytes) :
    (∃ draws, (d.dispose false : Shelving _).run s =
        ((.error noName, { d with released := true }), ⟨s.files.insert d.path d.bytes, draws⟩) ∧
      ∀ n, n + 1 < maxTries → ((s.files.insert d.path d.bytes).find?
        (join d.directory (fileName (s.stem n) finishedExtension))).isSome) ∨
      ∃ path n, IsConnection d.directory path ∧ s.files.find? path = none ∧
        (d.dispose false : Shelving _).run s = ((.ok (), { d with released := true }),
          { s.skip n with
            files := ((s.files.insert d.path d.bytes).erase d.path).insert path d.bytes }) := by
  let filled : Shelf := { s with files := s.files.insert d.path d.bytes }
  have held : filled.files.find? d.path = Option.some d.bytes := Table.find?_insert_self ..
  have unfolded : (d.dispose false : Shelving _).run s =
      ((((publish d : Shelving _).run filled).1, { d with released := true }),
        ((publish d : Shelving _).run filled).2) := by
    simp only [Deposit.dispose, open_, run_bind, run_fill there, run_pure, Bool.false_eq_true,
      if_false, List.isEmpty_iff, some, filled]
  rw [unfolded]
  rcases run_unusedPath d.directory maxTries drawn filled with ⟨draws, failed, -, all⟩ |
    ⟨path, n, connection, free, found⟩
  · left
    refine ⟨draws, ?_, all⟩
    simp only [publish, run_bind, failed, run_pure]
    rfl
  · right
    refine ⟨path, n, connection, ?_, ?_⟩
    · rw [Table.find?_insert] at free
      split at free
      · cases free
      · exact free
    · have renamed := run_rename (s := filled.skip n) held path
      simp only [publish, run_bind, found, renamed, run_pure]
      rfl

/-! ## Finding connections -/

theorem run_openAll (s : Shelf) (directory : String) {names : List String}
    (there : ∀ name ∈ names, ∃ bytes, s.files.find? (join directory name) = some bytes) :
    ∃ arrivals, (openAll directory names : Shelving _).run s = (.ok arrivals, s) ∧
      arrivals.map (·.path) = names.map (join directory) ∧
      ∀ arrival ∈ arrivals, s.files.find? arrival.path = some arrival.bytes := by
  induction names with
  | nil => exact ⟨[], rfl, rfl, fun _ member => nomatch member⟩
  | cons name names ih =>
      obtain ⟨bytes, found⟩ := there name List.mem_cons_self
      obtain ⟨arrivals, opened, paths, held⟩ :=
        ih fun other member => there other (List.mem_cons_of_mem _ member)
      refine ⟨⟨join directory name, bytes⟩ :: arrivals, ?_, by simp [paths], ?_⟩
      · simp only [openAll, run_bind, run_read, found, opened, run_pure, Option.elim_some,
          Except.map]
      · intro arrival member
        rcases List.mem_cons.mp member with rfl | later
        · exact found
        · exact held arrival later

/-- The names of the finished connections in a directory, in their order. -/
def finishedNames (directory : String) (files : Table String Bytes) : List String :=
  ((files.keys.filterMap (nameIn? directory)).filter
    (extension? · = some finishedExtension)).mergeSort (· ≤ ·)

theorem mem_finishedNames {directory name : String} {files : Table String Bytes} :
    name ∈ finishedNames directory files ↔
      nameIn? directory (join directory name) = some name ∧
        extension? name = some finishedExtension ∧
        ∃ bytes, files.find? (join directory name) = some bytes := by
  rw [finishedNames, List.mem_mergeSort, List.mem_filter, List.mem_filterMap]
  constructor
  · rintro ⟨⟨path, key, named⟩, extension⟩
    obtain ⟨bytes, found⟩ := (Table.mem_keys_iff ..).mp key
    obtain ⟨rfl, -⟩ := nameIn?_eq_some_iff.mp named
    exact ⟨named, by simpa using extension, bytes, found⟩
  · rintro ⟨named, extension, found⟩
    exact ⟨⟨_, (Table.mem_keys_iff ..).mpr found, named⟩, by simpa using extension⟩

theorem pairwise_finishedNames (directory : String) (files : Table String Bytes) :
    (finishedNames directory files).Pairwise (· < ·) := by
  have sorted : (finishedNames directory files).Pairwise (fun x y => decide (x ≤ y) = true) :=
    List.pairwise_mergeSort (by simpa using fun _ _ _ => le_trans)
      (by simpa using fun x y => le_total x y) _
  have distinct : (finishedNames directory files).Nodup := by
    refine (List.mergeSort_perm ..).nodup_iff.mpr (List.Nodup.filter _ ?_)
    refine List.Nodup.filterMap ?_ (Table.nodup_keys _)
    intro x y name ofX ofY
    rw [(nameIn?_eq_some_iff.mp ofX).1, (nameIn?_eq_some_iff.mp ofY).1]
  refine (sorted.and distinct).imp ?_
  rintro x y ⟨below, different⟩
  exact lt_of_le_of_ne (by simpa using below) different

/-- A look at a shelf finds each connection once, with its content, in the order of the names. -/
theorem run_poll (depot : Depot) (running : depot.running = true) (s : Shelf) :
    ∃ (arrivals : List Arrival) (names : List String),
      (poll depot : Shelving _).run s = (.ok arrivals, s) ∧
      names.Pairwise (· < ·) ∧ arrivals.map (·.path) = names.map (join depot.directory) ∧
      ∀ path bytes, ⟨path, bytes⟩ ∈ arrivals ↔
        IsConnection depot.directory path ∧ s.files.find? path = some bytes := by
  have there : ∀ name ∈ finishedNames depot.directory s.files,
      ∃ bytes, s.files.find? (join depot.directory name) = some bytes :=
    fun name member => (mem_finishedNames.mp member).2.2
  obtain ⟨arrivals, opened, paths, held⟩ := run_openAll s depot.directory there
  refine ⟨arrivals, finishedNames depot.directory s.files, ?_, pairwise_finishedNames .., paths,
    fun path bytes => ⟨fun member => ?_, ?_⟩⟩
  · simp only [poll, running, Bool.not_true, Bool.false_eq_true, if_false, run_bind, run_fileNames]
    exact opened
  · obtain ⟨name, here, same⟩ : ∃ name ∈ finishedNames depot.directory s.files,
        join depot.directory name = path := by
      rw [← List.mem_map, ← paths]
      exact List.mem_map_of_mem (f := Arrival.path) member
    obtain ⟨named, extension, -⟩ := mem_finishedNames.mp here
    exact ⟨⟨name, same ▸ named, extension⟩, held _ member⟩
  · rintro ⟨⟨name, named, extension⟩, found⟩
    obtain ⟨rfl, -⟩ := nameIn?_eq_some_iff.mp named
    have here := mem_finishedNames.mpr ⟨named, extension, bytes, found⟩
    obtain ⟨arrival, member, same⟩ : ∃ arrival ∈ arrivals,
        arrival.path = join depot.directory name := by
      rw [← List.mem_map, paths]
      exact List.mem_map_of_mem here
    have content := held arrival member
    rw [same, found] at content
    obtain ⟨path', bytes'⟩ := arrival
    obtain rfl := Option.some.inj content
    obtain rfl := same
    exact member

/-! ## Releasing an arrival -/

theorem run_dispose_kept {exception recognised : Bool} (kept : (!exception && recognised) = false)
    (a : Arrival) (s : Shelf) :
    (a.dispose exception recognised : Shelving _).run s = (.ok (), s) := by
  simp only [Arrival.dispose, kept, Bool.false_eq_true, if_false, run_pure]

/-- A connection that was read is removed, if that has not happened yet. -/
theorem run_dispose_consumed (a : Arrival) (s : Shelf) :
    ∃ answer, (a.dispose false true : Shelving _).run s =
      (answer, { s with files := s.files.erase a.path }) := by
  cases there : s.files.find? a.path with
  | none =>
      refine ⟨.error (.ofDevice FileTree.notFound), ?_⟩
      rw [Table.erase_of_find?_eq_none there]
      simp only [Arrival.dispose, Bool.not_false, Bool.and_self, if_true, run_bind,
        run_remove_of_missing there, run_pure, Except.mapError]
  | some bytes =>
      refine ⟨.ok (), ?_⟩
      simp only [Arrival.dispose, Bool.not_false, Bool.and_self, if_true, run_bind,
        run_remove there, run_pure, Except.mapError]

end Courier.Depot
