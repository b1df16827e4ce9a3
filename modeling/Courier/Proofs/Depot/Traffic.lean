import Courier.Proofs.Depot.Operations

/-! # The traffic of a directory

Depots share a directory: they make deposits, write to them and release them,
look for connections, and release what they found, in any order and under any
names. At every moment the finished connections are those that were there at
first and those that were released without exception, without those that were
consumed. A name that a connection was consumed under must not be taken again,
for a second reader of the old connection would take away the new one.
-/

namespace Courier.Depot

/-- A deposit, and what was asked of it. -/
structure Writer where
  deposit : Deposit
  /-- The bytes that were written before the first release. -/
  text : Bytes := []
  /-- Whether the first release came with an exception. -/
  ended : Option Bool := none

def Writer.write (bytes : Bytes) (w : Writer) : Writer :=
  { w with
    deposit := w.deposit.write bytes
    text := if w.ended = none then w.text ++ bytes else w.text }

/-- The files, and what is open in a directory. -/
structure Traffic where
  files : Table String Bytes
  writers : List Writer := []
  arrivals : List Arrival := []
  /-- Paths of the connections that were recognised and read without exception. -/
  consumed : List String := []

namespace Traffic

/-- A call of some depot, with whatever random bytes. The names that it tries come to an end, and no
    connection comes to the path of one that was consumed. -/
inductive Step (directory : String) (t : Traffic) : Traffic → Prop where
  | deposit (capacity : Nat) (draws : Nat → Nat → UInt8) {deposit : Deposit} {after : Shelf}
      (made : (Depot.deposit { directory, capacity, running := true } : Shelving _).run
        ⟨t.files, draws⟩ = (.ok (some deposit), after)) :
      Step directory t { t with files := after.files, writers := t.writers ++ [{ deposit }] }
  | write {i : Nat} {w : Writer} (found : t.writers[i]? = some w) (bytes : Bytes) :
      Step directory t { t with writers := t.writers.set i (w.write bytes) }
  | release (exception : Bool) (draws : Nat → Nat → UInt8) {i : Nat} {w : Writer}
      {deposit : Deposit} {after : Shelf} (found : t.writers[i]? = some w)
      (released : (w.deposit.dispose exception : Shelving _).run ⟨t.files, draws⟩ =
        ((.ok (), deposit), after))
      (unused : ∀ path ∈ t.consumed, after.files.find? path = t.files.find? path) :
      Step directory t { t with
        files := after.files
        writers := t.writers.set i { w with deposit, ended := w.ended.or (some exception) } }
  | poll (capacity : Nat) (draws : Nat → Nat → UInt8) {arrivals : List Arrival} {after : Shelf}
      (polled : (Depot.poll { directory, capacity, running := true } : Shelving _).run
        ⟨t.files, draws⟩ = (.ok arrivals, after)) :
      Step directory t { t with files := after.files, arrivals := t.arrivals ++ arrivals }
  | consume (exception recognised : Bool) (draws : Nat → Nat → UInt8) {arrival : Arrival}
      {answer : Except ConnectionFault Unit} {after : Shelf} (member : arrival ∈ t.arrivals)
      (disposed : (arrival.dispose exception recognised : Shelving _).run ⟨t.files, draws⟩ =
        (answer, after)) :
      Step directory t { t with
        files := after.files
        consumed := if !exception && recognised then arrival.path :: t.consumed else t.consumed }

/-- What the directory can come to. -/
abbrev Reaches (directory : String) : Traffic → Traffic → Prop :=
  Relation.ReflTransGen (Step directory)

/-- The writer with this number was released without exception, after some bytes. -/
def Finished (t : Traffic) (i : Nat) (w : Writer) : Prop :=
  t.writers[i]? = some w ∧ w.ended = some false ∧ w.text ≠ []

/-! ## Invariants -/

/-- Every open writer has a partial file of its own. -/
structure Separate (directory : String) (t : Traffic) : Prop where
  drawn : ∀ w ∈ t.writers, w.deposit.directory = directory ∧ IsStem w.deposit.stem
  told : ∀ w ∈ t.writers, w.deposit.bytes = w.text ∧ w.deposit.released = w.ended.isSome
  there : ∀ w ∈ t.writers, w.ended = none → ∃ bytes, t.files.find? w.deposit.path = some bytes
  apart : ∀ {i j : Nat} {w w' : Writer}, t.writers[i]? = some w → t.writers[j]? = some w' →
    w.ended = none → w'.ended = none → w.deposit.path = w'.deposit.path → i = j

/-- The finished connections are the first ones and those of the finished writers, each at its own
    place, without the consumed ones. -/
structure Published (directory : String) (initial : Table String Bytes) (place : Nat → String)
    (t : Traffic) : Prop where
  placed : ∀ {i w}, t.Finished i w → IsConnection directory (place i) ∧
    initial.find? (place i) = none ∧ ∀ {j w'}, t.Finished j w' → place i = place j → i = j
  held : ∀ {path bytes}, IsConnection directory path → (t.files.find? path = some bytes ↔
    path ∉ t.consumed ∧ (initial.find? path = some bytes ∨
      ∃ i w, t.Finished i w ∧ place i = path ∧ w.text = bytes))
  found : ∀ a ∈ t.arrivals, IsConnection directory a.path ∧
    (a.path ∈ t.consumed ∨ t.files.find? a.path = some a.bytes)

variable {directory : String} {initial : Table String Bytes} {place : Nat → String}
  {t t' : Traffic}

/-- Only connections and finished writers count. -/
theorem Published.congr (published : Published directory initial place t)
    (files : ∀ path, IsConnection directory path → t'.files.find? path = t.files.find? path)
    (finished : ∀ i w, t'.Finished i w ↔ t.Finished i w) (arrivals : t'.arrivals = t.arrivals)
    (consumed : t'.consumed = t.consumed) : Published directory initial place t' where
  placed := by
    simp only [finished]
    exact published.placed
  held := by
    intro path bytes connection
    simp only [finished, consumed, files path connection]
    exact published.held connection
  found := by
    intro a member
    rw [arrivals] at member
    obtain ⟨connection, held⟩ := published.found a member
    rw [consumed, files _ connection]
    exact ⟨connection, held⟩

/-! ## Making a deposit -/

theorem mem_writers {i : Nat} {w : Writer} (found : t.writers[i]? = some w) : w ∈ t.writers :=
  List.mem_of_getElem? found

theorem partial_ne_connection {d : Deposit} (drawn : IsStem d.stem) {path : String}
    (within : d.directory = directory) (connection : IsConnection directory path) :
    d.path ≠ path := by
  rintro rfl
  exact drawn.not_isConnection _ (within ▸ connection)

/-- A new partial file, and its writer. -/
def opened (t : Traffic) (d : Deposit) : Traffic :=
  { t with files := t.files.insert d.path [], writers := t.writers ++ [{ deposit := d }] }

theorem getElem?_opened {d : Deposit} {i : Nat} {w : Writer} :
    (t.opened d).writers[i]? = some w ↔
      t.writers[i]? = some w ∨ i = t.writers.length ∧ w = { deposit := d } := by
  simp only [opened, List.getElem?_append]
  split
  next below => simp [Nat.ne_of_lt below]
  next above =>
    have none : t.writers[i]? = none := List.getElem?_eq_none (Nat.le_of_not_lt above)
    rw [none, List.getElem?_singleton]
    split
    next same => simp [eq_comm, show i = t.writers.length by omega]
    next other => simp [show i ≠ t.writers.length by omega]

theorem Separate.opened (separate : Separate directory t) {stem : String} (drawn : IsStem stem)
    (unused : t.files.find? (Deposit.path { directory, stem }) = none) :
    Separate directory (t.opened { directory, stem }) := by
  have mem : ∀ {w}, w ∈ (t.opened { directory, stem }).writers →
      w ∈ t.writers ∨ w = { deposit := { directory, stem } } := by
    intro w member
    simpa [Traffic.opened] using member
  have other : ∀ {w}, w ∈ t.writers → w.ended = none →
      Deposit.path { directory, stem } ≠ w.deposit.path := by
    intro w member unended same
    obtain ⟨bytes, there⟩ := separate.there w member unended
    rw [← same, unused] at there
    cases there
  constructor
  case drawn =>
    intro w member
    rcases mem member with before | rfl
    · exact separate.drawn w before
    · exact ⟨rfl, drawn⟩
  case told =>
    intro w member
    rcases mem member with before | rfl
    · exact separate.told w before
    · exact ⟨rfl, rfl⟩
  case there =>
    intro w member unended
    rcases mem member with before | rfl
    · rw [Traffic.opened, Table.find?_insert_of_ne _ _ (other before unended)]
      exact separate.there w before unended
    · exact ⟨[], Table.find?_insert_self ..⟩
  case apart =>
    intro i j w w' found found' unended unended' same
    rcases getElem?_opened.mp found with before | ⟨rfl, rfl⟩ <;>
      rcases getElem?_opened.mp found' with before' | ⟨rfl, rfl⟩
    · exact separate.apart before before' unended unended' same
    · exact absurd same.symm (other (mem_writers before) unended)
    · exact absurd same (other (mem_writers before') unended')
    · rfl

theorem Published.opened (published : Published directory initial place t) {stem : String}
    (drawn : IsStem stem) : Published directory initial place (t.opened { directory, stem }) := by
  refine published.congr (fun path connection => ?_) (fun i w => ?_) rfl rfl
  · exact Table.find?_insert_of_ne _ _
      (partial_ne_connection (d := { directory, stem }) drawn rfl connection)
  · rw [Finished, Finished, getElem?_opened]
    constructor
    · rintro ⟨before | ⟨-, rfl⟩, ended, some⟩
      · exact ⟨before, ended, some⟩
      · cases ended
    · rintro ⟨before, ended, some⟩
      exact ⟨.inl before, ended, some⟩

/-! ## Writing -/

section Changing

variable {i : Nat} {w : Writer} (found : t.writers[i]? = some w)
include found

theorem getElem?_set {j : Nat} {v w' : Writer} : (t.writers.set i w')[j]? = some v ↔
    j = i ∧ v = w' ∨ j ≠ i ∧ t.writers[j]? = some v := by
  obtain ⟨within, -⟩ := List.getElem?_eq_some_iff.mp found
  rw [List.getElem?_set]
  by_cases same : i = j
  · subst same
    simp [within, eq_comm]
  · simp [same, Ne.symm same]

theorem mem_set {v w' : Writer} (member : v ∈ t.writers.set i w') :
    v = w' ∨ v ∈ t.writers := by
  obtain ⟨j, at_⟩ := List.getElem?_of_mem member
  rcases (getElem?_set found).mp at_ with ⟨-, rfl⟩ | ⟨-, before⟩
  · exact .inl rfl
  · exact .inr (mem_writers before)

/-- An open writer changes, and with it at most its own partial file and connections. -/
theorem Separate.set (separate : Separate directory t) (open_ : w.ended = none)
    {files : Table String Bytes} {w' : Writer}
    (same : w'.deposit.directory = w.deposit.directory ∧ w'.deposit.stem = w.deposit.stem)
    (told : w'.deposit.bytes = w'.text ∧ w'.deposit.released = w'.ended.isSome)
    (kept : ∀ {path}, ¬ IsConnection directory path → path ≠ w.deposit.path ∨ w'.ended = none →
      files.find? path = t.files.find? path) :
    Separate directory { t with files, writers := t.writers.set i w' } := by
  have path : w'.deposit.path = w.deposit.path := by rw [Deposit.path, Deposit.path, same.1, same.2]
  have drawn : ∀ v ∈ t.writers.set i w',
      v.deposit.directory = directory ∧ IsStem v.deposit.stem := by
    intro v member
    rcases mem_set found member with rfl | before
    · rw [same.1, same.2]
      exact separate.drawn w (mem_writers found)
    · exact separate.drawn v before
  -- An open writer was open before, with the same partial file.
  have before : ∀ {j : Nat} {v : Writer}, (t.writers.set i w')[j]? = some v → v.ended = none →
      ∃ u : Writer, t.writers[j]? = some u ∧ u.ended = none ∧ u.deposit.path = v.deposit.path := by
    intro j v here unended
    rcases (getElem?_set found).mp here with ⟨rfl, rfl⟩ | ⟨-, before⟩
    · exact ⟨w, found, open_, path.symm⟩
    · exact ⟨v, before, unended, rfl⟩
  refine ⟨drawn, fun v member => ?_, fun v member unended => ?_, ?_⟩
  · rcases mem_set found member with rfl | earlier
    · exact told
    · exact separate.told v earlier
  · obtain ⟨j, here⟩ := List.getElem?_of_mem member
    obtain ⟨u, at_, unended', path'⟩ := before here unended
    obtain ⟨bytes, there⟩ := separate.there u (mem_writers at_) unended'
    obtain ⟨within, stem⟩ := drawn v member
    refine ⟨bytes, (kept (within ▸ stem.not_isConnection _) ?_).trans (path' ▸ there)⟩
    rcases (getElem?_set found).mp here with ⟨rfl, rfl⟩ | ⟨other, -⟩
    · exact .inr unended
    · refine .inl fun shared => other ?_
      exact separate.apart at_ found unended' open_ (path'.trans shared)
  · intro j k v v' here here' unended unended' shared
    obtain ⟨u, at_, open_, path⟩ := before here unended
    obtain ⟨u', at_', open_', path'⟩ := before here' unended'
    exact separate.apart at_ at_' open_ open_' (path.trans (shared.trans path'.symm))

/-- An open writer changes without being finished, and connections stay. -/
theorem Published.set (published : Published directory initial place t) (open_ : w.ended = none)
    {files : Table String Bytes} {w' : Writer} (unfinished : w'.ended ≠ some false ∨ w'.text = [])
    (kept : ∀ path, IsConnection directory path → files.find? path = t.files.find? path) :
    Published directory initial place { t with files, writers := t.writers.set i w' } := by
  refine published.congr kept (fun j v => ?_) rfl rfl
  rw [Finished, Finished, getElem?_set found]
  constructor
  · rintro ⟨⟨-, rfl⟩ | ⟨-, before⟩, ended, some⟩
    · exact absurd (unfinished.resolve_left (not_not_intro ended)) some
    · exact ⟨before, ended, some⟩
  · rintro ⟨before, ended, some⟩
    refine ⟨.inr ⟨?_, before⟩, ended, some⟩
    rintro rfl
    rw [found] at before
    obtain rfl := Option.some.inj before
    rw [open_] at ended
    cases ended

/-- A writer that is finished now is the one that changed or was finished before. -/
theorem finished_set_iff {files : Table String Bytes} {w' : Writer} (ended : w'.ended = some false)
    (filled : w'.text ≠ []) {j : Nat} {v : Writer} :
    { t with files, writers := t.writers.set i w' : Traffic }.Finished j v ↔
      j = i ∧ v = w' ∨ j ≠ i ∧ t.Finished j v := by
  rw [Finished, Finished, getElem?_set found]
  constructor
  · rintro ⟨⟨rfl, rfl⟩ | ⟨other, before⟩, rest⟩
    · exact .inl ⟨rfl, rfl⟩
    · exact .inr ⟨other, before, rest⟩
  · rintro (⟨rfl, rfl⟩ | ⟨other, before, rest⟩)
    · exact ⟨.inl ⟨rfl, rfl⟩, ended, filled⟩
    · exact ⟨.inr ⟨other, before⟩, rest⟩

omit found in
/-- Where nothing is and nothing was consumed, there was no connection, and none was finished. -/
theorem Published.unused_of_free (published : Published directory initial place t) {path : String}
    (connection : IsConnection directory path) (free : t.files.find? path = none)
    (unused : path ∉ t.consumed) :
    initial.find? path = none ∧ ∀ {j v}, t.Finished j v → place j ≠ path := by
  refine ⟨Option.eq_none_iff_forall_ne_some.mpr fun bytes first => ?_, ?_⟩
  · rw [(published.held connection).mpr ⟨unused, .inl first⟩] at free
    cases free
  · rintro j v before rfl
    rw [(published.held connection).mpr ⟨unused, .inr ⟨j, v, before, rfl, rfl⟩⟩] at free
    cases free

/-- An open writer is finished, with its bytes at a place that nothing has and that no connection
    was consumed at. -/
theorem Published.finish (published : Published directory initial place t) (open_ : w.ended = none)
    {files : Table String Bytes} {w' : Writer} {path : String} (ended : w'.ended = some false)
    (filled : w'.text ≠ []) (connection : IsConnection directory path)
    (free : t.files.find? path = none) (unused : path ∉ t.consumed)
    (here : files.find? path = some w'.text)
    (kept : ∀ other, IsConnection directory other → other ≠ path →
      files.find? other = t.files.find? other) :
    Published directory initial (Function.update place i path)
      { t with files, writers := t.writers.set i w' } := by
  let t' : Traffic := { t with files, writers := t.writers.set i w' }
  have finished : ∀ {j v}, t'.Finished j v ↔ j = i ∧ v = w' ∨ j ≠ i ∧ t.Finished j v :=
    finished_set_iff found ended filled
  obtain ⟨absent, elsewhere⟩ := published.unused_of_free connection free unused
  have mine : Function.update place i path i = path := Function.update_self ..
  have others : ∀ {j}, j ≠ i → Function.update place i path j = place j :=
    fun other => Function.update_of_ne other ..
  constructor
  case placed =>
    intro j v now
    rcases finished.mp now with ⟨rfl, rfl⟩ | ⟨other, before⟩
    · rw [mine]
      refine ⟨connection, absent, fun {k v'} now' same => ?_⟩
      rcases finished.mp now' with ⟨rfl, -⟩ | ⟨other', before'⟩
      · rfl
      · rw [others other'] at same
        exact absurd same.symm (elsewhere before')
    · rw [others other]
      obtain ⟨connection', absent', apart⟩ := published.placed before
      refine ⟨connection', absent', fun {k v'} now' same => ?_⟩
      rcases finished.mp now' with ⟨rfl, -⟩ | ⟨other', before'⟩
      · rw [mine] at same
        exact absurd same (elsewhere before)
      · rw [others other'] at same
        exact apart before' same
  case held =>
    intro q bytes connection'
    by_cases same : q = path
    · subst same
      rw [here]
      constructor
      · intro content
        exact ⟨unused, .inr ⟨i, w', finished.mpr (.inl ⟨rfl, rfl⟩), mine, Option.some.inj content⟩⟩
      · rintro ⟨-, first | ⟨j, v, now, at_, rfl⟩⟩
        · rw [absent] at first
          cases first
        · rcases finished.mp now with ⟨-, rfl⟩ | ⟨other, before⟩
          · rfl
          · rw [others other] at at_
            exact absurd at_ (elsewhere before)
    · rw [kept q connection' same, published.held connection']
      refine and_congr_right fun _ => or_congr_right ?_
      constructor
      · rintro ⟨j, v, before, at_, content⟩
        have other : j ≠ i := by
          rintro rfl
          rw [Finished, found] at before
          obtain rfl := Option.some.inj before.1
          rw [open_] at before
          cases before.2.1
        exact ⟨j, v, finished.mpr (.inr ⟨other, before⟩), (others other).trans at_, content⟩
      · rintro ⟨j, v, now, at_, content⟩
        rcases finished.mp now with ⟨rfl, -⟩ | ⟨other, before⟩
        · rw [mine] at at_
          exact absurd at_.symm same
        · exact ⟨j, v, before, (others other).symm.trans at_, content⟩
  case found =>
    intro a member
    obtain ⟨connection', held⟩ := published.found a member
    refine ⟨connection', held.imp_right fun content => ?_⟩
    have other : a.path ≠ path := by
      intro same
      rw [same, free] at content
      cases content
    rw [kept _ connection' other]
    exact content

theorem set_self : { t with writers := t.writers.set i w } = t := by
  obtain ⟨within, rfl⟩ := List.getElem?_eq_some_iff.mp found
  rw [List.set_getElem_self]

end Changing

/-! ## Releasing -/

/-- A writer that ended takes no more bytes. -/
theorem write_of_ended (separate : Separate directory t) {w : Writer} (member : w ∈ t.writers)
    (ended : w.ended ≠ none) (bytes : Bytes) : w.write bytes = w := by
  have released : w.deposit.released = true := by
    rw [(separate.told w member).2]
    exact Option.isSome_iff_ne_none.mpr ended
  simp [Writer.write, Deposit.write, released, ended]

/-- A writer that ended is released without effect. -/
theorem run_dispose_of_ended (separate : Separate directory t) {w : Writer}
    (member : w ∈ t.writers) (ended : w.ended ≠ none) (exception : Bool) (s : Shelf) :
    (w.deposit.dispose exception : Shelving _).run s = ((.ok (), w.deposit), s) := by
  refine run_dispose_of_released ?_ exception
  rw [(separate.told w member).2]
  exact Option.isSome_iff_ne_none.mpr ended

/-- Only a search for names that finds none keeps a deposit from being released. -/
theorem run_dispose_answer (separate : Separate directory t) {w : Writer} (member : w ∈ t.writers)
    (exception : Bool) (draws : Nat → Nat → UInt8) :
    ((w.deposit.dispose exception : Shelving _).run ⟨t.files, draws⟩).1.1 = .ok () ∨
      ((w.deposit.dispose exception : Shelving _).run ⟨t.files, draws⟩).1.1 = .error noName := by
  by_cases ended : w.ended = none
  case neg =>
    left
    rw [run_dispose_of_ended separate member ended]
  obtain ⟨-, told⟩ := separate.told w member
  obtain ⟨-, drawn⟩ := separate.drawn w member
  obtain ⟨bytes, there⟩ := separate.there w member ended
  rw [ended, Option.isSome_none] at told
  cases exception with
  | true =>
      left
      rw [run_dispose_exception told there]
  | false =>
      by_cases empty : w.deposit.bytes = []
      · left
        rw [run_dispose_empty told empty there]
      · rcases run_dispose_finished (s := ⟨t.files, draws⟩) told drawn empty there with
          ⟨draws', failed, -⟩ | ⟨path, n, -, -, finished⟩
        · right
          rw [failed]
        · left
          rw [finished]

/-! ## Every call -/

/-- What holds at every moment. -/
structure Kept (directory : String) (initial : Table String Bytes) (t : Traffic) : Prop where
  separate : Separate directory t
  published : ∃ place, Published directory initial place t

theorem Kept.start (directory : String) (initial : Table String Bytes) :
    Kept directory initial { files := initial } := by
  refine ⟨⟨?_, ?_, ?_, ?_⟩, fun _ => "", ⟨?_, ?_, ?_⟩⟩ <;> simp [Finished]

theorem Kept.write (kept : Kept directory initial t) {i : Nat} {w : Writer}
    (found : t.writers[i]? = some w) (bytes : Bytes) :
    Kept directory initial { t with writers := t.writers.set i (w.write bytes) } := by
  obtain ⟨separate, place, published⟩ := kept
  cases ended : w.ended with
  | some exception =>
      have same := write_of_ended separate (mem_writers found)
        (ended ▸ Option.some_ne_none exception) bytes
      rw [same, set_self found]
      exact ⟨separate, place, published⟩
  | none =>
      obtain ⟨text, released⟩ := separate.told w (mem_writers found)
      rw [ended, Option.isSome_none] at released
      have wrote : w.write bytes = { w with
          deposit := { w.deposit with bytes := w.deposit.bytes ++ bytes }
          text := w.text ++ bytes } := by
        simp [Writer.write, Deposit.write, released, ended]
      rw [wrote]
      constructor
      · exact separate.set found ended ⟨rfl, rfl⟩ ⟨by rw [text], by simp [released, ended]⟩
          fun _ _ => rfl
      · exact ⟨place, published.set found ended (.inl (by simp [ended])) fun _ _ => rfl⟩

/-- What a release can do: nothing, because it is not the first; take the partial file away; or put
    the bytes of the writer at a path of a connection that nothing has. -/
theorem release_cases (separate : Separate directory t) {i : Nat} {w : Writer}
    {exception : Bool} {draws : Nat → Nat → UInt8} {deposit : Deposit} {after : Shelf}
    (found : t.writers[i]? = some w)
    (released : (w.deposit.dispose exception : Shelving _).run ⟨t.files, draws⟩ =
      ((.ok (), deposit), after)) :
    (w.ended ≠ none ∧ deposit = w.deposit ∧ after.files = t.files) ∨
      (w.ended = none ∧ deposit = { w.deposit with released := true } ∧
        (exception = true ∨ w.text = []) ∧
        ∀ other, w.deposit.path ≠ other → after.files.find? other = t.files.find? other) ∨
      (w.ended = none ∧ deposit = { w.deposit with released := true } ∧
        exception = false ∧ w.text ≠ [] ∧ ∃ path, IsConnection directory path ∧
          t.files.find? path = none ∧ after.files.find? path = some w.text ∧
          ∀ other, w.deposit.path ≠ other → path ≠ other →
            after.files.find? other = t.files.find? other) := by
  obtain ⟨text, told⟩ := separate.told w (mem_writers found)
  obtain ⟨within, drawn⟩ := separate.drawn w (mem_writers found)
  by_cases ended : w.ended = none
  case neg =>
    rw [run_dispose_of_ended separate (mem_writers found) ended] at released
    obtain ⟨result, rfl⟩ := Prod.mk.inj released
    exact .inl ⟨ended, (Prod.mk.inj result).2.symm, rfl⟩
  rw [ended, Option.isSome_none] at told
  obtain ⟨bytes, there⟩ := separate.there w (mem_writers found) ended
  cases exception with
  | true =>
      rw [run_dispose_exception told there] at released
      obtain ⟨result, rfl⟩ := Prod.mk.inj released
      exact .inr (.inl ⟨ended, (Prod.mk.inj result).2.symm, .inl rfl,
        fun other apart => Table.find?_erase_of_ne _ apart⟩)
  | false =>
      by_cases empty : w.deposit.bytes = []
      · rw [run_dispose_empty told empty there] at released
        obtain ⟨result, rfl⟩ := Prod.mk.inj released
        refine .inr (.inl ⟨ended, (Prod.mk.inj result).2.symm, .inr (text ▸ empty),
          fun other apart => ?_⟩)
        rw [Table.find?_erase_of_ne _ apart, Table.find?_insert_of_ne _ _ apart]
      · rcases run_dispose_finished (s := ⟨t.files, draws⟩) told drawn empty there with
          ⟨draws', failed, -⟩ | ⟨path, n, connection, free, finished⟩
        · rw [failed] at released
          cases released
        · rw [finished] at released
          obtain ⟨result, rfl⟩ := Prod.mk.inj released
          refine .inr (.inr ⟨ended, (Prod.mk.inj result).2.symm, rfl, text ▸ empty, path,
            within ▸ connection, free, ?_, fun other apart new => ?_⟩)
          · rw [Table.find?_insert_self, text]
          · rw [Table.find?_insert_of_ne _ _ new, Table.find?_erase_of_ne _ apart,
              Table.find?_insert_of_ne _ _ apart]

theorem Kept.release (kept : Kept directory initial t) {i : Nat} {w : Writer}
    {exception : Bool} {draws : Nat → Nat → UInt8} {deposit : Deposit} {after : Shelf}
    (found : t.writers[i]? = some w)
    (released : (w.deposit.dispose exception : Shelving _).run ⟨t.files, draws⟩ =
      ((.ok (), deposit), after))
    (unused : ∀ path ∈ t.consumed, after.files.find? path = t.files.find? path) :
    Kept directory initial { t with
      files := after.files
      writers := t.writers.set i { w with deposit, ended := w.ended.or (some exception) } } := by
  obtain ⟨separate, place, published⟩ := kept
  obtain ⟨text, -⟩ := separate.told w (mem_writers found)
  obtain ⟨within, drawn⟩ := separate.drawn w (mem_writers found)
  have apart : ∀ path, IsConnection directory path → w.deposit.path ≠ path :=
    fun path connection => partial_ne_connection drawn within connection
  rcases release_cases separate found released with ⟨ended, rfl, same⟩ |
    ⟨ended, rfl, unfinished, same⟩ | ⟨ended, rfl, rfl, filled, path, connection, free, here, same⟩
  · obtain ⟨before, ended⟩ := Option.ne_none_iff_exists'.mp ended
    rw [same, ended, Option.some_or, ← ended, set_self found]
    exact ⟨separate, place, published⟩
  · rw [ended, Option.none_or]
    refine ⟨separate.set found ended ⟨rfl, rfl⟩ ⟨text, rfl⟩ fun _ other => ?_,
      place, published.set found ended ?_ fun path connection => same _ (apart path connection)⟩
    · exact same _ (other.resolve_right (Option.some_ne_none _)).symm
    · rcases unfinished with rfl | empty
      · exact .inl fun same => nomatch same
      · exact .inr empty
  · rw [ended, Option.none_or]
    have fresh : path ∉ t.consumed := by
      intro member
      have still := unused path member
      rw [free, here] at still
      cases still
    refine ⟨separate.set found ended ⟨rfl, rfl⟩ ⟨text, rfl⟩ fun {other} foreign at_ => ?_,
      _, published.finish found ended rfl filled connection free fresh here
        fun other finished new => same other (apart other finished) new.symm⟩
    refine same _ (at_.resolve_right (Option.some_ne_none _)).symm ?_
    rintro rfl
    exact foreign connection

theorem Kept.poll (kept : Kept directory initial t) {capacity : Nat} {draws : Nat → Nat → UInt8}
    {arrivals : List Arrival} {after : Shelf}
    (polled : (Depot.poll { directory, capacity, running := true } : Shelving _).run
      ⟨t.files, draws⟩ = (.ok arrivals, after)) :
    Kept directory initial { t with files := after.files, arrivals := t.arrivals ++ arrivals } := by
  obtain ⟨separate, place, published⟩ := kept
  obtain ⟨arrivals', names, answer, -, -, mem⟩ :=
    run_poll { directory, capacity, running := true } rfl ⟨t.files, draws⟩
  rw [answer] at polled
  obtain ⟨same, rfl⟩ := Prod.mk.inj polled
  obtain rfl := Except.ok.inj same
  refine ⟨{ separate with }, place, { published with found := fun a member => ?_ }⟩
  rcases List.mem_append.mp member with before | now
  · exact published.found a before
  · obtain ⟨connection, content⟩ := (mem a.path a.bytes).mp now
    exact ⟨connection, .inr content⟩

theorem Published.consume (published : Published directory initial place t) (arrival : Arrival) :
    Published directory initial place { t with
      files := t.files.erase arrival.path, consumed := arrival.path :: t.consumed } where
  placed := published.placed
  held := by
    intro path bytes connection
    have held : t.files.find? path = some bytes ↔ _ := published.held connection
    by_cases same : arrival.path = path
    · simp [same]
    · rw [Table.find?_erase_of_ne _ same, held, List.mem_cons, not_or, and_assoc]
      exact ⟨fun rest => ⟨Ne.symm same, rest⟩, And.right⟩
  found := by
    intro a before
    obtain ⟨connection, content⟩ := published.found a before
    refine ⟨connection, ?_⟩
    by_cases same : arrival.path = a.path
    · exact .inl (same ▸ List.mem_cons_self)
    · rw [Table.find?_erase_of_ne _ same]
      exact content.imp_left (List.mem_cons_of_mem _)

theorem Kept.consume (kept : Kept directory initial t) {arrival : Arrival}
    {exception recognised : Bool} {draws : Nat → Nat → UInt8} {answer : Except ConnectionFault Unit}
    {after : Shelf} (member : arrival ∈ t.arrivals)
    (disposed : (arrival.dispose exception recognised : Shelving _).run ⟨t.files, draws⟩ =
      (answer, after)) :
    Kept directory initial { t with
      files := after.files
      consumed := if !exception && recognised then arrival.path :: t.consumed
        else t.consumed } := by
  obtain ⟨separate, place, published⟩ := kept
  cases wanted : !exception && recognised with
  | false =>
      rw [run_dispose_kept wanted] at disposed
      obtain ⟨-, rfl⟩ := Prod.mk.inj disposed
      exact ⟨{ separate with }, place, { published with }⟩
  | true =>
      obtain ⟨rfl, rfl⟩ : exception = false ∧ recognised = true := by simpa using wanted
      obtain ⟨answer', ran⟩ := run_dispose_consumed arrival ⟨t.files, draws⟩
      rw [ran] at disposed
      obtain ⟨-, rfl⟩ := Prod.mk.inj disposed
      have connection := (published.found arrival member).1
      refine ⟨{ separate with there := fun w open_ unended => ?_ }, place,
        published.consume arrival⟩
      obtain ⟨within, drawn⟩ := separate.drawn w open_
      rw [Table.find?_erase_of_ne _ (partial_ne_connection drawn within connection).symm]
      exact separate.there w open_ unended

theorem Kept.step (kept : Kept directory initial t) (step : Step directory t t') :
    Kept directory initial t' := by
  cases step with
  | deposit capacity draws made =>
      rcases run_deposit { directory, capacity, running := true } rfl
        ⟨t.files, draws⟩ with ⟨draws', failed, -⟩ | ⟨n, unused, opened⟩
      · rw [failed] at made
        cases made
      · rw [opened] at made
        obtain ⟨same, rfl⟩ := Prod.mk.inj made
        obtain rfl := Option.some.inj (Except.ok.inj same)
        obtain ⟨separate, place, published⟩ := kept
        have drawn := isStem_stem ⟨t.files, draws⟩ n
        exact ⟨separate.opened drawn unused, place, published.opened drawn⟩
  | write found bytes => exact kept.write found bytes
  | release exception draws found released unused => exact kept.release found released unused
  | poll capacity draws polled => exact kept.poll polled
  | consume exception recognised draws member disposed => exact kept.consume member disposed

theorem Kept.reaches (kept : Kept directory initial t) (reaches : Reaches directory t t') :
    Kept directory initial t' := by
  induction reaches with
  | refl => exact kept
  | tail _ step ih => exact ih.step step

/-- A connection keeps its content until it is consumed. -/
theorem Kept.content_stays (kept : Kept directory initial t) (step : Step directory t t')
    {path : String} {bytes : Bytes} (connection : IsConnection directory path)
    (there : t.files.find? path = some bytes) (left : path ∉ t'.consumed) :
    t'.files.find? path = some bytes := by
  obtain ⟨separate, place, published⟩ := kept
  cases step with
  | deposit capacity draws made =>
      rcases run_deposit { directory, capacity, running := true } rfl
        ⟨t.files, draws⟩ with ⟨draws', failed, -⟩ | ⟨n, unused, opened⟩
      · rw [failed] at made
        cases made
      · rw [opened] at made
        obtain ⟨-, rfl⟩ := Prod.mk.inj made
        have apart : Deposit.path { directory, stem := Shelf.stem ⟨t.files, draws⟩ n } ≠ path :=
          partial_ne_connection (isStem_stem _ _) rfl connection
        exact (Table.find?_insert_of_ne _ _ apart).trans there
  | write found bytes => exact there
  | release exception draws found released unused =>
      obtain ⟨within, drawn⟩ := separate.drawn _ (mem_writers found)
      have apart := partial_ne_connection drawn within connection
      rcases release_cases separate found released with ⟨-, -, same⟩ | ⟨-, -, -, same⟩ |
        ⟨-, -, -, -, path', -, free, -, same⟩
      · rwa [same]
      · rwa [same _ apart]
      · rwa [same _ apart]
        rintro rfl
        rw [free] at there
        cases there
  | poll capacity draws polled =>
      obtain ⟨arrivals', names, answer, -⟩ :=
        run_poll { directory, capacity, running := true } rfl ⟨t.files, draws⟩
      rw [answer] at polled
      obtain ⟨-, rfl⟩ := Prod.mk.inj polled
      exact there
  | @consume exception recognised draws arrival answer after member disposed =>
      cases wanted : !exception && recognised with
      | false =>
          rw [run_dispose_kept wanted] at disposed
          obtain ⟨-, rfl⟩ := Prod.mk.inj disposed
          exact there
      | true =>
          obtain ⟨rfl, rfl⟩ : exception = false ∧ recognised = true := by simpa using wanted
          obtain ⟨answer', ran⟩ := run_dispose_consumed arrival ⟨t.files, draws⟩
          rw [ran] at disposed
          obtain ⟨-, rfl⟩ := Prod.mk.inj disposed
          have apart : arrival.path ≠ path := by
            rintro rfl
            exact left List.mem_cons_self
          rwa [Table.find?_erase_of_ne _ apart]

/-- At every moment, the finished connections of a directory are those that were there at first and
    one for each finished writer, without those that were consumed. None is replaced or altered. A
    writer that was released once does nothing any more. A look finds each finished connection once,
    in the order of names, and nothing else. Only a search for names that finds none can keep a
    deposit from being made or released. -/
theorem publishes_finished (reaches : Reaches directory { files := initial } t) :
    (∃ place : Nat → String,
      (∀ i w, t.Finished i w → IsConnection directory (place i) ∧
        initial.find? (place i) = none ∧ ∀ j w', t.Finished j w' → place i = place j → i = j) ∧
      ∀ path bytes, IsConnection directory path → (t.files.find? path = some bytes ↔
        path ∉ t.consumed ∧ (initial.find? path = some bytes ∨
          ∃ i w, t.Finished i w ∧ place i = path ∧ w.text = bytes))) ∧
    (∀ t', Step directory t t' → ∀ path bytes, IsConnection directory path →
      t.files.find? path = some bytes → path ∉ t'.consumed →
        t'.files.find? path = some bytes) ∧
    (∀ w ∈ t.writers, w.ended ≠ none → (∀ bytes, w.write bytes = w) ∧ ∀ exception s,
      (w.deposit.dispose exception : Shelving _).run s = ((.ok (), w.deposit), s)) ∧
    (∀ capacity draws, ∃ (arrivals : List Arrival) (names : List String),
      (Depot.poll { directory, capacity, running := true } : Shelving _).run ⟨t.files, draws⟩ =
        (.ok arrivals, ⟨t.files, draws⟩) ∧
      names.Pairwise (· < ·) ∧ arrivals.map (·.path) = names.map (FileStore.join directory) ∧
      ∀ path bytes, ⟨path, bytes⟩ ∈ arrivals ↔
        IsConnection directory path ∧ t.files.find? path = some bytes) ∧
    (∀ capacity draws, ∃ answer after,
      (Depot.deposit { directory, capacity, running := true } : Shelving _).run ⟨t.files, draws⟩ =
        (answer, after) ∧ ((∃ deposit, answer = .ok (some deposit)) ∨ answer = .error noName)) ∧
    ∀ w ∈ t.writers, ∀ exception draws,
      ((w.deposit.dispose exception : Shelving _).run ⟨t.files, draws⟩).1.1 = .ok () ∨
        ((w.deposit.dispose exception : Shelving _).run ⟨t.files, draws⟩).1.1 =
          .error noName := by
  have kept := (Kept.start directory initial).reaches reaches
  have separate := kept.separate
  obtain ⟨place, published⟩ := kept.published
  refine ⟨⟨place, fun i w finished => ?_, fun path bytes connection => published.held connection⟩,
    fun t' step path bytes => kept.content_stays step,
    fun w member ended => ⟨write_of_ended separate member ended,
      run_dispose_of_ended separate member ended⟩,
    fun capacity draws => run_poll _ rfl _, fun capacity draws => ?_,
    fun w member => run_dispose_answer separate member⟩
  · obtain ⟨connection, absent, apart⟩ := published.placed finished
    exact ⟨connection, absent, fun j w' => apart⟩
  · rcases run_deposit { directory, capacity, running := true } rfl
      ⟨t.files, draws⟩ with ⟨draws', failed, -⟩ | ⟨n, -, made⟩
    · exact ⟨_, _, failed, .inr rfl⟩
    · exact ⟨_, _, made, .inl ⟨_, rfl⟩⟩

/-- The name of the new connection is that of a foreign one, which is read and consumed. -/
theorem publishes_finished_under_other_name :
    ∃ t, Reaches "d"
        { files := Table.empty.insert "d/00000000000000000000000000000000.dat" [9] } t ∧
      t.consumed = ["d/00000000000000000000000000000000.dat"] ∧
      (∃ w, t.Finished 0 w ∧ w.text = [1, 2]) ∧
      ∃ path, IsConnection "d" path ∧ path ≠ "d/00000000000000000000000000000000.dat" ∧
        t.files.find? path = some [1, 2] := by
  let zeros : Nat → Nat → UInt8 := fun _ _ => 0
  let ones : Nat → Nat → UInt8 := fun _ _ => 1
  let foreign := "d/00000000000000000000000000000000.dat"
  let depot : Depot := { directory := "d", running := true }
  let d : Deposit := { directory := "d", stem := "00000000000000000000000000000000" }
  let start : Traffic := { files := Table.empty.insert foreign [9] }
  let made := (Depot.deposit depot : Shelving _).run ⟨start.files, zeros⟩
  let begun : Traffic := { start with files := made.2.files, writers := [{ deposit := d }] }
  let w := Writer.write [1, 2] { deposit := d }
  let written : Traffic := { begun with writers := [w] }
  let released := (w.deposit.dispose false : Shelving _).run ⟨written.files, ones⟩
  let ended : Writer := { w with deposit := released.1.2, ended := some false }
  let left : Traffic := { written with files := released.2.files, writers := [ended] }
  have reaches : Reaches "d" start left := by
    have opening : Step "d" start begun :=
      .deposit depot.capacity zeros (Prod.ext (by decide +kernel) rfl)
    have writing : Step "d" begun written := .write (w := { deposit := d }) (i := 0) rfl [1, 2]
    have releasing : Step "d" written left := .release false ones (i := 0) rfl
      (Prod.ext (Prod.ext (by decide +kernel) rfl) rfl) fun _ member => nomatch member
    exact ((Relation.ReflTransGen.single opening).tail writing).tail releasing
  obtain ⟨-, -, -, looks, -⟩ := publishes_finished reaches
  obtain ⟨arrivals, names, polled, -, -, mem⟩ := looks depot.capacity zeros
  have named : IsConnection "d" foreign :=
    ⟨"00000000000000000000000000000000.dat", by decide +kernel, by decide +kernel⟩
  have seen : ⟨foreign, [9]⟩ ∈ arrivals := (mem foreign [9]).mpr ⟨named, by decide +kernel⟩
  let read := ((Arrival.mk foreign [9]).dispose false true : Shelving _).run ⟨left.files, zeros⟩
  let cleared : Traffic := { left with files := read.2.files, arrivals, consumed := [foreign] }
  have clears : Reaches "d" start cleared :=
    (reaches.tail (.poll depot.capacity zeros polled)).tail
      (.consume (t := { left with arrivals }) false true zeros seen rfl)
  obtain ⟨⟨place, placed, held⟩, -⟩ := publishes_finished clears
  have finished : cleared.Finished 0 ended := ⟨rfl, rfl, by decide +kernel⟩
  have text : ended.text = [1, 2] := by decide +kernel
  obtain ⟨connection, absent, -⟩ := placed 0 ended finished
  have other : place 0 ≠ foreign := by
    intro same
    rw [same] at absent
    exact absurd absent (by decide +kernel)
  refine ⟨cleared, clears, rfl, ⟨ended, finished, text⟩, place 0, connection, other, ?_⟩
  refine (held (place 0) [1, 2] connection).mpr ⟨?_, .inr ⟨0, ended, finished, rfl, text⟩⟩
  exact fun member => other (List.mem_singleton.mp member)

end Traffic

end Courier.Depot
