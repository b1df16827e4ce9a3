import Courier.Proofs.Connection.Roster
import Courier.Proofs.Connection.Window
import Courier.Proofs.Secret
import Courier.Proofs.Tag
import Courier.Mailbox.Basic
import Courier.Session.Receive
import Mathlib.Data.List.Nodup
import Mathlib.Data.List.ReduceOption
import Mathlib.Logic.Function.Basic
import Mathlib.Order.Bounds.Basic

/-! # What a roster recognises

A roster stands for the stream numbers that were accepted on each route. The
base of a window is the lowest number that is still open, and a tag is
recognised if the number behind it is open and less than a window above that
base. So no number of a route is accepted twice, whatever tags come in, and no
two sessions deliver records under one stream number.
-/

namespace Courier

namespace Window

/-- A window moves on by one number at a time, for as long as the number at its base was accepted.
    It takes so many steps. -/
inductive Moves : (steps : Nat) → Window → Window → Prop where
  | stop {w : Window} (open_ : w.seen.head? ≠ some true) : Moves 0 w w
  | step {steps base : Nat} {seen : List Bool} {w : Window}
      (rest : Moves steps ⟨base + 1, seen ++ [false]⟩ w) : Moves (steps + 1) ⟨base, true :: seen⟩ w

/-- The window with one more number marked as accepted, before it moves. -/
def mark (w : Window) (stream : Nat) : Window :=
  { w with seen := w.seen.set (stream - w.base) true }

/-- Moving on ends after as many steps as there are marks at the start. -/
theorem moves_slide (w : Window) : ∃ steps ≤ w.seen.length, w.Moves steps w.slide := by
  obtain ⟨base, seen⟩ := w
  -- numbers that joined at the end are open, so the marks in front are all that is passed
  have moves : ∀ (marks : List Bool) (base joined : Nat),
      ∃ steps ≤ marks.length, Moves steps ⟨base, marks ++ List.replicate joined false⟩
        ⟨base + (marks.takeWhile id).length, marks.drop (marks.takeWhile id).length ++
          List.replicate (joined + (marks.takeWhile id).length) false⟩ := by
    intro marks
    induction marks with
    | nil =>
        intro base joined
        refine ⟨0, Nat.le_refl 0, .stop ?_⟩
        cases joined <;> simp [List.replicate_succ]
    | cons mark marks ih =>
        intro base joined
        cases mark with
        | false => exact ⟨0, Nat.zero_le _, .stop (by simp)⟩
        | true =>
            obtain ⟨steps, most, rest⟩ := ih (base + 1) (joined + 1)
            have joins : marks ++ List.replicate (joined + 1) false =
                marks ++ List.replicate joined false ++ [false] := by
              rw [List.replicate_succ', List.append_assoc]
            rw [joins] at rest
            refine ⟨steps + 1, Nat.succ_le_succ most, .step ?_⟩
            simpa [Nat.add_assoc, Nat.add_comm 1] using rest
  obtain ⟨steps, most, moved⟩ := moves seen base 0
  exact ⟨steps, most, by simpa [slide] using moved⟩

variable {w w' : Window} {stream size : Nat} {accepted : Nat → Prop}

/-- Accepting a number marks it and moves the window on. -/
theorem moves_of_accept? (answer : w.accept? stream = some w') :
    ∃ steps ≤ w.seen.length, (w.mark stream).Moves steps w' := by
  simp only [accept?] at answer
  split at answer
  · cases answer
  · split at answer
    · obtain rfl := Option.some.inj answer
      obtain ⟨steps, most, moves⟩ := moves_slide (w.mark stream)
      exact ⟨steps, by simpa [mark] using most, moves⟩
    · cases answer

/-- The base of a window is the lowest number that it has not accepted. -/
theorem Holds.isLeast_base (holds : w.Holds size accepted) : IsLeast {n | ¬ accepted n} w.base := by
  constructor
  · exact fun before => holds.settled.not_accepted ((holds.accepted_iff _).mpr before)
  · intro n open_
    refine Nat.le_of_not_lt fun below => open_ ?_
    exact (holds.accepted_iff n).mp (.inl below)

/-- A window accepts the open numbers that lie in it, and each of them once. -/
theorem Holds.accept?_isSome_iff (holds : w.Holds size accepted) :
    (w.accept? stream).isSome ↔ ¬ accepted stream ∧ stream < w.base + size := by
  obtain ⟨rfl, settled, accepted_iff⟩ := holds
  by_cases before : w.Accepted stream
  · simp [accept?_of_accepted before, ← accepted_iff, before]
  · by_cases inside : stream < w.base + w.seen.length
    · obtain ⟨w', answer, -⟩ := accept?_of_open before inside
      simp [answer, ← accepted_iff, before, inside]
    · simp [accept?_of_far (Nat.le_of_not_lt inside), inside]

theorem Holds.of_accept? (holds : w.Holds size accepted) (answer : w.accept? stream = some w') :
    w'.Holds size fun n => accepted n ∨ n = stream := by
  obtain ⟨new, inside⟩ := holds.accept?_isSome_iff.mp (by rw [answer]; rfl)
  obtain ⟨rfl, settled, accepted_iff⟩ := holds
  obtain ⟨other, same, length, settled', after⟩ :=
    accept?_of_open (fun before => new ((accepted_iff stream).mp before)) inside
  obtain rfl := Option.some.inj (same.symm.trans answer)
  exact ⟨length, settled', fun n => by rw [after, accepted_iff]⟩

end Window

/-- No tag carries a number above the largest stream number. -/
theorem Tag.le_of_decode {tag : Tag} {key : Secret} {stream : Nat}
    (decoded : tag.decode key = some stream) : stream ≤ maxContext := by
  have below : ∀ column : Column, column.toNat ≤ maxContext := by
    intro column
    have spelled := ofBigEndian_lt column.toBytes
    have size : column.toBytes.length = 4 := rfl
    rw [size] at spelled
    exact Nat.le_of_lt_succ spelled
  simp only [decode] at decoded
  split at decoded
  · cases decoded
  · split at decoded
    · obtain rfl := Option.some.inj decoded
      exact below _
    · cases decoded


namespace Roster

/-! ## Expecting connections -/

/-- What is expected on a route: connections under a secret from the other side of a role, from a
    stream number on. -/
structure Expectation where
  secret : Secret
  role : Role
  first : UInt64

/-- These connections are expected, with windows of `size` numbers, and none has come yet. -/
inductive Opens (size : Nat) : (Route → Option Expectation) → Roster → Prop where
  | nothing : Opens size (fun _ => none) (.ofWindow size)
  | expect {expected : Route → Option Expectation} {roster roster' : Roster} {route : Route}
      {its : Expectation} (opens : Opens size expected roster)
      (done : roster.expect route its.secret its.role its.first.toNat = .ok roster') :
      Opens size (Function.update expected route (some its)) roster'
  | forget {expected : Route → Option Expectation} {roster : Roster} {route : Route}
      (opens : Opens size expected roster) :
      Opens size (Function.update expected route none) (roster.forget route)

/-- The entry of a route on which nothing has come. -/
def Expectation.Begins (its : Expectation) (size : Nat) (entry : Entry) : Prop :=
  its.secret.derive (.tagKey its.role.peer) = .ok entry.peerTagKey ∧
    entry = { secret := its.secret, peerTagKey := entry.peerTagKey, role := its.role,
              window := .fresh size its.first.toNat }

/-- Each route that is expected has such an entry, and no other route has one. -/
theorem Opens.entries {size : Nat} {expected : Route → Option Expectation} {roster : Roster}
    (opens : Opens size expected roster) :
    roster.windowSize = max size 1 ∧ ∀ route,
      (∀ its, expected route = some its → ∃ entry, roster.entries.find? route = some entry ∧
        its.Begins (max size 1) entry) ∧
      (expected route = none → roster.entries.find? route = none) := by
  induction opens with
  | nothing => exact ⟨rfl, fun route => ⟨by simp, fun _ => rfl⟩⟩
  | @expect expected roster roster' here its opens done ih =>
      obtain ⟨windowSize, ih⟩ := ih
      simp only [Roster.expect] at done
      split at done
      next peerTagKey derived =>
        obtain rfl := Except.ok.inj done
        refine ⟨windowSize, fun route => ?_⟩
        by_cases same : route = here
        · subst same
          simp only [Function.update_self, Table.find?_insert_self]
          refine ⟨fun other known => ?_, fun unknown => absurd unknown (Option.some_ne_none its)⟩
          obtain rfl := Option.some.inj known
          exact ⟨_, rfl, derived, by rw [windowSize]⟩
        · simpa [Function.update_of_ne same, Table.find?_insert_of_ne _ _ (Ne.symm same)]
            using ih route
      · cases done
  | @forget expected roster here opens ih =>
      obtain ⟨windowSize, ih⟩ := ih
      refine ⟨windowSize, fun route => ?_⟩
      by_cases same : route = here
      · subst same
        simp [Roster.forget]
      · simpa [Roster.forget, Function.update_of_ne same, Table.find?_erase_of_ne _ (Ne.symm same)]
          using ih route

/-! ## One tag after the other -/

/-- What tags open, one after the other, and the roster after them. -/
def recogniseAll (roster : Roster) : List Tag → List (Option Context) × Roster
  | [] => ([], roster)
  | tag :: tags =>
      let (answer, roster) := roster.recognise tag
      let (answers, roster) := roster.recogniseAll tags
      (answer :: answers, roster)

/-- The stream numbers that were accepted on a route. -/
def acceptedOn (route : Route) (answers : List (Option Context)) : List Nat :=
  (answers.filterMap fun answer => answer.filter (·.route = route)).map (·.stream)

/-- At most one entry decodes the tag. -/
def Decides (roster : Roster) (tag : Tag) : Prop :=
  ∀ ⦃route other entry its⦄, roster.entries.find? route = some entry →
    roster.entries.find? other = some its → (tag.decode entry.peerTagKey).isSome →
    (tag.decode its.peerTagKey).isSome → other = route

/-- A tag is recognised by an entry that accepts it, and only that entry changes. -/
theorem recognise_cases (roster : Roster) (tag : Tag) :
    roster.recognise tag = (none, roster) ∧
        (∀ route entry, roster.entries.find? route = some entry → entry.accept? tag = none) ∨
      ∃ route entry stream window, roster.entries.find? route = some entry ∧
        tag.decode entry.peerTagKey = some stream ∧ entry.window.accept? stream = some window ∧
        roster.recognise tag = (some { route, secret := entry.secret, stream, role := entry.role },
          { roster with entries := roster.entries.insert route { entry with window } }) := by
  cases matched : match? tag roster.entries.entries with
  | none =>
      refine .inl ⟨by rw [recognise, matched], fun route entry found => ?_⟩
      have member := (roster.entries.find?_eq_some_iff route entry).mp found
      simpa using List.findSome?_eq_none_iff.mp matched _ member
  | some answer =>
      obtain ⟨item, member, answered⟩ := List.exists_of_findSome?_eq_some matched
      obtain ⟨⟨stream, entry'⟩, accepted, rfl⟩ := Option.map_eq_some_iff.mp answered
      simp only [Entry.accept?, Option.bind_eq_bind, Option.bind_eq_some_iff, Option.pure_def,
        Option.some.injEq, Prod.mk.injEq] at accepted
      obtain ⟨number, decoded, window, moved, rfl, rfl⟩ := accepted
      exact .inr ⟨item.1, item.2, number, window,
        (roster.entries.find?_eq_some_iff item.1 item.2).mpr member, decoded, moved,
        by rw [recognise, matched]⟩

/-- What has become of a roster that gave these answers: each window has accepted the numbers below
    its first one and those of the answers. -/
structure Answered (start : Roster) (answers : List (Option Context)) (roster : Roster) : Prop where
  known : ∀ route entry, start.entries.find? route = some entry → ∃ window,
    roster.entries.find? route = some { entry with window } ∧
      window.Holds start.windowSize fun n => n < entry.window.base ∨ n ∈ acceptedOn route answers
  unknown : ∀ route, start.entries.find? route = none → roster.entries.find? route = none
  once : ∀ route, (acceptedOn route answers).Nodup
  range : ∀ route, ∀ stream ∈ acceptedOn route answers, stream ≤ maxContext

variable {start roster : Roster} {answers : List (Option Context)} {tag : Tag}

theorem acceptedOn_append (route : Route) (answers more : List (Option Context)) :
    acceptedOn route (answers ++ more) = acceptedOn route answers ++ acceptedOn route more := by
  simp [acceptedOn]

/-- Before any tag came, the windows are those of the start. -/
theorem Answered.begins
    (fresh : ∀ route entry, start.entries.find? route = some entry →
      entry.window.Holds start.windowSize (· < entry.window.base)) :
    Answered start [] start where
  known := fun route entry found =>
    ⟨entry.window, found, by simpa [acceptedOn] using fresh route entry found⟩
  unknown := fun _ none => none
  once := fun _ => .nil
  range := by simp [acceptedOn]

/-- A tag that never came adds nothing. -/
theorem Answered.skip (answered : Answered start answers roster) :
    Answered start (answers ++ [none]) roster := by
  have same : ∀ route, acceptedOn route (answers ++ [none]) = acceptedOn route answers := by
    simp [acceptedOn]
  obtain ⟨known, unknown, once, range⟩ := answered
  exact ⟨by simpa only [same] using known, unknown, by simpa only [same] using once,
    by simpa only [same] using range⟩

/-- A number that an entry accepts is added to those of its route. -/
theorem Answered.accept (answered : Answered start answers roster) {context : Context}
    {entry : Entry} {window : Window} (found : roster.entries.find? context.route = some entry)
    (inRange : context.stream ≤ maxContext)
    (accepted : entry.window.accept? context.stream = some window) :
    Answered start (answers ++ [some context])
      { roster with entries := roster.entries.insert context.route { entry with window } } := by
  obtain ⟨here, secret, stream, role⟩ := context
  have added : acceptedOn here (answers ++ [some ⟨here, secret, stream, role⟩]) =
      acceptedOn here answers ++ [stream] := by
    simp [acceptedOn, Option.filter]
  have kept : ∀ route, route ≠ here →
      acceptedOn route (answers ++ [some ⟨here, secret, stream, role⟩]) =
        acceptedOn route answers := by
    intro route other
    simp [acceptedOn, Ne.symm other]
  -- the entry was there at the start, because no other one has come since
  have begun : ∃ its, start.entries.find? here = some its := by
    refine Option.ne_none_iff_exists'.mp fun missing => ?_
    rw [answered.unknown here missing] at found
    cases found
  obtain ⟨its, begun⟩ := begun
  obtain ⟨before, now, holds⟩ := answered.known here its begun
  obtain rfl := Option.some.inj (found.symm.trans now)
  have new : stream ∉ acceptedOn here answers := fun member =>
    (holds.accept?_isSome_iff.mp (by rw [accepted]; rfl)).1 (.inr member)
  constructor
  case known =>
    intro route entry begun'
    by_cases same : route = here
    · subst same
      obtain rfl := Option.some.inj (begun.symm.trans begun')
      refine ⟨window, Table.find?_insert_self .., (holds.of_accept? accepted).congr fun n => ?_⟩
      rw [added, List.mem_append, List.mem_singleton, or_assoc]
    · rw [Table.find?_insert_of_ne _ _ (Ne.symm same), kept route same]
      exact answered.known route entry begun'
  case unknown =>
    intro route missing
    have same : here ≠ route := by
      rintro rfl
      rw [begun] at missing
      cases missing
    rw [Table.find?_insert_of_ne _ _ same]
    exact answered.unknown route missing
  case once =>
    intro route
    by_cases same : route = here
    · subst same
      rw [added]
      exact (answered.once route).append (List.nodup_singleton _)
        (List.disjoint_singleton.mpr new)
    · rw [kept route same]
      exact answered.once route
  case range =>
    intro route
    by_cases same : route = here
    · subst same
      rw [added]
      intro n member
      rcases List.mem_append.mp member with earlier | last
      · exact answered.range route n earlier
      · rw [List.mem_singleton.mp last]
        exact inRange
    · rw [kept route same]
      exact answered.range route

/-- One more tag adds at most one number, to the route on which it was recognised. -/
theorem Answered.recognise (answered : Answered start answers roster) (tag : Tag) :
    Answered start (answers ++ [(roster.recognise tag).1]) (roster.recognise tag).2 := by
  rcases recognise_cases roster tag with ⟨nothing, -⟩ |
    ⟨here, entry, stream, window, found, decoded, accepted, recognised⟩
  · rw [nothing]
    exact answered.skip
  · rw [recognised]
    exact answered.accept found (Tag.le_of_decode decoded) accepted

/-- Answers add up, tag by tag. -/
theorem Answered.recogniseAll (answered : Answered start answers roster) (tags : List Tag) :
    Answered start (answers ++ (roster.recogniseAll tags).1) (roster.recogniseAll tags).2 := by
  induction tags generalizing answers roster with
  | nil => simpa [Roster.recogniseAll] using answered
  | cons tag tags ih => simpa [Roster.recogniseAll] using ih (answered.recognise tag)

/-- No number of a route was accepted twice, so none of these contexts have both in common. -/
theorem Answered.nodup (answered : Answered start answers roster) :
    (answers.reduceOption.map fun context => (context.route, context.stream)).Nodup := by
  have apart : ∀ {answers : List (Option Context)}, (∀ route, (acceptedOn route answers).Nodup) →
      (answers.reduceOption.map fun context => (context.route, context.stream)).Nodup := by
    intro answers once
    induction answers with
    | nil => exact .nil
    | cons answer answers ih =>
        have split : ∀ route, acceptedOn route (answer :: answers) =
            acceptedOn route [answer] ++ acceptedOn route answers :=
          fun route => acceptedOn_append route [answer] answers
        have later := ih fun route => by
          have both := once route
          rw [split] at both
          exact both.of_append_right
        cases answer with
        | none => simpa [List.reduceOption] using later
        | some context =>
            rw [List.reduceOption_cons_of_some, List.map_cons, List.nodup_cons]
            refine ⟨fun again => ?_, later⟩
            obtain ⟨other, member, same⟩ := List.mem_map.mp again
            obtain ⟨route, stream⟩ := Prod.mk.inj same
            have both := once context.route
            rw [split] at both
            have first : context.stream ∈ acceptedOn context.route [some context] := by
              simp [acceptedOn, Option.filter]
            have second : context.stream ∈ acceptedOn context.route answers := by
              refine List.mem_map.mpr ⟨other, List.mem_filterMap.mpr ⟨some other, ?_, ?_⟩, stream⟩
              · exact List.reduceOption_mem_iff.mp member
              · simp [Option.filter, route]
            exact List.disjoint_of_nodup_append both first second
  exact apart answered.once

/-! ## Sessions that share a roster -/

end Roster

namespace Session.Receiving

variable {σ ρ : Type}

/-- What keys the connection that a session receives; nothing if its tag is not read or not
    recognised. -/
def keyed? (reader : ReadingEnd ρ) (s : Receiving Roster σ ρ) : Option Context :=
  match (identify Roster.recogniser reader s).1 with
  | .ok context => context
  | .error _ => none

private theorem identify_eq (reader : ReadingEnd ρ) (s : Receiving Roster σ ρ) :
    identify Roster.recogniser reader s =
      match Tag.read reader.source s.device with
      | (.error fault, device) => (.error (.connection fault), { s with device })
      | (.ok tag, device) =>
          (.ok (s.recogniser.recognise tag).1,
            { s with device, recogniser := (s.recogniser.recognise tag).2 }) :=
  rfl

/-- Delivering records does not touch the roster. -/
private theorem recogniser_deliver (receiver : RecordReceiver σ) (reader : ReadingEnd ρ)
    (context : Context) (s : Receiving Roster σ ρ) :
    (deliver receiver reader context s).2.recogniser = s.recogniser := by
  simp only [deliver]
  split
  · rfl
  · split <;> rfl

/-- A session tries at most one tag. Without a context it delivers nothing. -/
theorem receive_cases (receiver : RecordReceiver σ) (reader : ReadingEnd ρ)
    {s s' : Receiving Roster σ ρ} {result : Except SessionFault ReceiveOutcome}
    (unused : s.used = false)
    (received : s.receive Roster.recogniser receiver reader = (result, s')) :
    (s.keyed? reader = none → s'.mailbox = s.mailbox) ∧
      (s.keyed? reader = none ∧ s'.recogniser = s.recogniser ∨ ∃ tag,
        s.keyed? reader = (s.recogniser.recognise tag).1 ∧
          s'.recogniser = (s.recogniser.recognise tag).2) := by
  rcases read : Tag.read reader.source s.device with ⟨fault | tag, device⟩
  · simp only [receive, unused, identify_eq, read] at received
    obtain ⟨-, rfl⟩ := Prod.mk.inj received
    have keyed : s.keyed? reader = none := by simp only [keyed?, identify_eq, read]
    exact ⟨fun _ => rfl, .inl ⟨keyed, rfl⟩⟩
  · have keyed : s.keyed? reader = (s.recogniser.recognise tag).1 := by
      simp only [keyed?, identify_eq, read]
    simp only [receive, unused, identify_eq, read, Bool.false_eq_true, if_false] at received
    cases recognised : (s.recogniser.recognise tag).1 with
    | none =>
        simp only [recognised] at received
        obtain ⟨-, rfl⟩ := Prod.mk.inj received
        exact ⟨fun _ => rfl, .inr ⟨tag, keyed, rfl⟩⟩
    | some context =>
        refine ⟨fun none => ?_, .inr ⟨tag, keyed, ?_⟩⟩
        · rw [keyed, recognised] at none
          cases none
        · have kept := recogniser_deliver receiver reader context
            { s with
              device, used := true, recogniser := (s.recogniser.recognise tag).2 }
          simp only [recognised] at received
          split at received
          next delivered =>
            obtain ⟨-, rfl⟩ := Prod.mk.inj received
            rw [delivered] at kept
            exact kept
          next delivered =>
            obtain ⟨-, rfl⟩ := Prod.mk.inj received
            rw [delivered] at kept
            exact kept

end Session.Receiving

namespace Roster

open Session (Receiving)

/-- Sessions receive one connection after the other with this roster, each at an end and for a
    receiver of its own; with what keyed each of them. -/
inductive Receives : Roster → List (Option Context) → Roster → Prop where
  | nil (roster : Roster) : Receives roster [] roster
  | cons {σ ρ : Type} {receiver : RecordReceiver σ} {reader : ReadingEnd ρ}
      {s s' : Receiving Roster σ ρ} {result : Except SessionFault Session.ReceiveOutcome}
      {keyed : List (Option Context)} {last : Roster} (unused : s.used = false)
      (received : s.receive Roster.recogniser receiver reader = (result, s'))
      (rest : Receives s'.recogniser keyed last) :
      Receives s.recogniser (s.keyed? reader :: keyed) last

theorem Answered.receives {keyed : List (Option Context)} {last : Roster}
    (answered : Answered start answers roster) (receives : roster.Receives keyed last) :
    Answered start (answers ++ keyed) last := by
  induction receives generalizing answers with
  | nil => simpa using answered
  | cons unused received rest ih =>
      rw [List.append_cons]
      refine ih ?_
      rcases (Receiving.receive_cases _ _ unused received).2 with ⟨none, same⟩ | ⟨tag, keyed, next⟩
      · rw [none, same]
        exact answered.skip
      · rw [keyed, next]
        exact answered.recognise tag

/-! ## What is recognised -/

/-- The lowest number that was not accepted, from the first expected one on. -/
def Expectation.LowestOpen (its : Expectation) (accepted : List Nat) (base : Nat) : Prop :=
  IsLeast {n | its.first.toNat ≤ n ∧ n ∉ accepted} base

/-- A tag should open the connection of this context: it carries an open number, less than `size`
    above the lowest one. -/
structure Due (size : Nat) (expected : Route → Option Expectation) (answers : List (Option Context))
    (tag : Tag) (context : Context) : Prop where
  keyed : ∃ its key, expected context.route = some its ∧ context.secret = its.secret ∧
    context.role = its.role ∧ its.secret.derive (.tagKey its.role.peer) = .ok key ∧
    tag.decode key = some context.stream ∧ ∃ base,
      its.LowestOpen (acceptedOn context.route answers) base ∧ base ≤ context.stream ∧
      context.stream < base + size
  open_ : context.stream ∉ acceptedOn context.route answers

section

variable {size : Nat} {expected : Route → Option Expectation}

theorem Opens.answered (opens : Opens size expected start) : Answered start [] start := by
  obtain ⟨windowSize, entries⟩ := opens.entries
  refine .begins fun route entry found => ?_
  cases known : expected route with
  | none =>
      rw [(entries route).2 known] at found
      cases found
  | some its =>
      obtain ⟨other, same, -, begins⟩ := (entries route).1 its known
      obtain rfl := Option.some.inj (found.symm.trans same)
      rw [windowSize, begins]
      exact Window.fresh_holds (by omega) _

/-- The entry of a route after some answers, and the base of its window. -/
theorem Answered.entry (opens : Opens size expected start)
    (answered : Answered start answers roster) {route : Route} {its : Expectation}
    (known : expected route = some its) : ∃ key window,
      its.secret.derive (.tagKey its.role.peer) = .ok key ∧
      start.entries.find? route = some { secret := its.secret, peerTagKey := key, role := its.role,
                                         window := .fresh (max size 1) its.first.toNat } ∧
      roster.entries.find? route =
        some { secret := its.secret, peerTagKey := key, role := its.role, window } ∧
      window.Holds (max size 1)
        (fun n => n < its.first.toNat ∨ n ∈ acceptedOn route answers) ∧
      its.LowestOpen (acceptedOn route answers) window.base := by
  obtain ⟨windowSize, entries⟩ := opens.entries
  obtain ⟨entry, found, derived, begins⟩ := (entries route).1 its known
  obtain ⟨window, now, holds⟩ := answered.known route entry found
  rw [begins, windowSize] at holds
  rw [begins] at now found
  refine ⟨entry.peerTagKey, window, derived, found, now, holds, ?_⟩
  simpa [Expectation.LowestOpen, Window.fresh] using holds.isLeast_base

/-- Every entry is that of an expected route. -/
theorem Answered.expects (opens : Opens size expected start)
    (answered : Answered start answers roster) {route : Route} {entry : Entry}
    (found : roster.entries.find? route = some entry) : ∃ its window,
      expected route = some its ∧ start.entries.find? route = some { entry with window } ∧
      entry.secret = its.secret ∧ entry.role = its.role ∧
      its.secret.derive (.tagKey its.role.peer) = .ok entry.peerTagKey ∧
      entry.window.Holds (max size 1)
        (fun n => n < its.first.toNat ∨ n ∈ acceptedOn route answers) ∧
      its.LowestOpen (acceptedOn route answers) entry.window.base := by
  cases known : expected route with
  | none =>
      rw [answered.unknown route ((opens.entries.2 route).2 known)] at found
      cases found
  | some its =>
      obtain ⟨key, window, derived, begun, now, holds, lowest⟩ := answered.entry opens known
      obtain rfl := Option.some.inj (found.symm.trans now)
      exact ⟨its, _, rfl, begun, rfl, rfl, derived, holds, lowest⟩

/-- A base is the first number of its route, or follows a number that was accepted. -/
theorem Expectation.LowestOpen.lt {its : Expectation} {accepted : List Nat} {base : Nat}
    (lowest : its.LowestOpen accepted base) (range : ∀ n ∈ accepted, n ≤ maxContext) :
    base < UInt64.size := by
  by_cases first : base ≤ its.first.toNat
  · exact Nat.lt_of_le_of_lt first its.first.toNat_lt
  · have before : base - 1 ∈ accepted := by
      by_contra open_
      have least := lowest.2 (show base - 1 ∈ _ from ⟨by omega, open_⟩)
      omega
    have bound := range _ before
    simp only [maxContext] at bound
    simp only [UInt64.size]
    omega

/-- A roster recognises exactly the tags that are due. -/
theorem Answered.recognise_iff (opens : Opens size expected start)
    (answered : Answered start answers roster) (decides : start.Decides tag) (context : Context) :
    (roster.recognise tag).1 = some context ↔ Due (max size 1) expected answers tag context := by
  constructor
  · intro recognised
    rcases recognise_cases roster tag with ⟨nothing, -⟩ |
      ⟨route, entry, stream, window, found, decoded, accepted, answer⟩
    · rw [nothing] at recognised
      cases recognised
    · rw [answer] at recognised
      obtain rfl := Option.some.inj recognised
      obtain ⟨its, _, known, -, secret, role, derived, holds, lowest⟩ :=
        answered.expects opens found
      have fits := holds.accept?_isSome_iff.mp (by rw [accepted]; rfl)
      have above : entry.window.base ≤ stream := Nat.le_of_not_lt fun below =>
        fits.1 ((holds.accepted_iff stream).mp (.inl below))
      exact ⟨⟨its, _, known, secret, role, derived, decoded, _, lowest, above, fits.2⟩,
        fun member => fits.1 (.inr member)⟩
  · rintro ⟨⟨its, key, known, secret, role, derived, decoded, base, lowest, above, inside⟩, open_⟩
    obtain ⟨other, window, derived', begun, now, holds, lowest'⟩ := answered.entry opens known
    obtain rfl : other = key := Except.ok.inj (derived'.symm.trans derived)
    obtain rfl : window.base = base := lowest'.unique lowest
    have new : ¬ (context.stream < its.first.toNat ∨
        context.stream ∈ acceptedOn context.route answers) := by
      rintro (below | member)
      · have least := lowest.1.1
        omega
      · exact open_ member
    obtain ⟨after, accepted⟩ := Option.isSome_iff_exists.mp
      (holds.accept?_isSome_iff.mpr ⟨new, inside⟩)
    have answer : Entry.accept? ⟨its.secret, other, its.role, window⟩ tag =
        some (context.stream, ⟨its.secret, other, its.role, after⟩) := by
      simp [Entry.accept?, decoded, accepted]
    have foreign : ∀ {route entry}, roster.entries.find? route = some entry →
        route ≠ context.route → tag.decode entry.peerTagKey = none := by
      intro route entry found different
      obtain ⟨_, _, -, begun', -⟩ := answered.expects opens found
      by_contra decodes
      exact different (decides begun begun' (by rw [decoded]; rfl)
        (Option.isSome_iff_ne_none.mpr decodes))
    rw [recognise_of_unique now answer foreign, ← secret, ← role]

end

/-- Whatever tags have come in, a tag is recognised exactly if its number is open and less than a
    window above the lowest open number of its route, which is the base of the window. Only the
    entry that accepts a tag changes, and its window moves on in at most as many steps as it holds
    numbers. No number of a route is accepted twice, so no two sessions deliver under one stream
    number, and a session whose tag is not recognised delivers nothing. -/
theorem recognises_open_streams {size : Nat} {expected : Route → Option Expectation}
    {start : Roster}
    (opens : Opens size expected start) (tags : List Tag) {tag : Tag}
    (decides : start.Decides tag) :
    let answers := (start.recogniseAll tags).1
    let roster := (start.recogniseAll tags).2
    (∀ context, (roster.recognise tag).1 = some context ↔
        Due (max size 1) expected answers tag context) ∧
      (∀ route its, expected route = some its → ∃ base, roster.windowBase? route = some base ∧
        its.LowestOpen (acceptedOn route answers) base ∧ base < UInt64.size) ∧
      ((roster.recognise tag).1 = none → (roster.recognise tag).2 = roster) ∧
      (∀ context, (roster.recognise tag).1 = some context →
        (∀ route, route ≠ context.route →
          (roster.recognise tag).2.entries.find? route = roster.entries.find? route) ∧
        ∃ entry window steps, roster.entries.find? context.route = some entry ∧
          (roster.recognise tag).2.entries.find? context.route = some { entry with window } ∧
          steps ≤ max size 1 ∧ (entry.window.mark context.stream).Moves steps window) ∧
      (∀ route, (acceptedOn route answers).Nodup) ∧
      (∀ keyed last, start.Receives keyed last →
        (keyed.reduceOption.map fun context => (context.route, context.stream)).Nodup) ∧
      ∀ {σ ρ : Type} {receiver : RecordReceiver σ} {reader : ReadingEnd ρ}
        {s s' : Receiving Roster σ ρ} {result : Except SessionFault Session.ReceiveOutcome},
        s.used = false → s.receive Roster.recogniser receiver reader = (result, s') →
        s.keyed? reader = none → s'.mailbox = s.mailbox := by
  intro answers roster
  have answered : Answered start answers roster := opens.answered.recogniseAll tags
  refine ⟨answered.recognise_iff opens decides, fun route its known => ?_, fun nothing => ?_,
    fun context recognised => ?_, answered.once, fun keyed last receives => ?_,
    fun unused received => (Receiving.receive_cases _ _ unused received).1⟩
  · obtain ⟨key, window, -, -, now, -, lowest⟩ := answered.entry opens known
    exact ⟨window.base, by rw [windowBase?, now]; rfl, lowest, lowest.lt (answered.range route)⟩
  · rcases recognise_cases roster tag with ⟨answer, -⟩ | ⟨_, _, _, _, -, -, -, answer⟩
    · rw [answer]
    · rw [answer] at nothing
      cases nothing
  · rcases recognise_cases roster tag with ⟨answer, -⟩ |
      ⟨route, entry, stream, window, found, -, accepted, answer⟩
    · rw [answer] at recognised
      cases recognised
    · rw [answer] at recognised ⊢
      obtain rfl := Option.some.inj recognised
      obtain ⟨steps, most, moves⟩ := Window.moves_of_accept? accepted
      obtain ⟨_, _, -, -, -, -, -, holds, -⟩ := answered.expects opens found
      rw [holds.length] at most
      exact ⟨fun other different => Table.find?_insert_of_ne _ _ different.symm, entry, window,
        steps, found, Table.find?_insert_self .., most, moves⟩
  · exact (opens.answered.receives receives).nodup

/-- A roster that expects connections on one route only. -/
private def single (size : Nat) (route : Route) (entry : Entry) : Roster :=
  ⟨size, ⟨[(route, entry)], List.pairwise_singleton _ _⟩⟩

private theorem find?_single {size : Nat} {route other : Route} {entry its : Entry}
    (found : (single size route entry).entries.find? other = some its) :
    other = route ∧ its = entry := by
  have member := ((single size route entry).entries.find?_eq_some_iff other its).mp found
  exact Prod.mk.inj (List.mem_singleton.mp member)

private theorem recognise_single {tag : Tag} {stream : Nat} (size : Nat) (route : Route)
    (entry : Entry) (decoded : tag.decode entry.peerTagKey = some stream) :
    (single size route entry).recognise tag =
      match entry.window.accept? stream with
      | some window =>
          (some { route, secret := entry.secret, stream, role := entry.role },
            single size route { entry with window })
      | none => (none, single size route entry) := by
  cases accepted : entry.window.accept? stream with
  | none =>
      refine recognise_of_none fun found => ?_
      obtain ⟨-, rfl⟩ := find?_single found
      simp [Entry.accept?, decoded, accepted]
  | some window =>
      have answer : entry.accept? tag = some (stream, { entry with window }) := by
        simp [Entry.accept?, decoded, accepted]
      have found : (single size route entry).entries.find? route = some entry := by
        simp [single, Table.find?]
      rw [recognise_of_unique found answer fun other different =>
        absurd (find?_single other).1 different]
      simp [single, Table.insert, Table.insertEntry]

/-- Two numbers come in reverse order, and one that is three above the base is refused at first. -/
theorem recognises_open_streams_out_of_order :
    ∃ expected start, Opens 2 expected start ∧ ∃ three four six : Tag, start.Decides six ∧
      (start.recogniseAll [four, six, three]).1.map (Option.map Context.stream) =
        [some 4, none, some 3] ∧
      ∃ context, context.stream = 6 ∧
        ((start.recogniseAll [four, six, three]).2.recognise six).1 = some context ∧
        Due 2 expected (start.recogniseAll [four, six, three]).1 six context := by
  obtain ⟨key, derived⟩ : ∃ key, (Secret.repeated 5).derive (.tagKey .alice) = .ok key :=
    Secret.derive_of_usable _ (by decide) (by decide)
  have usable : key.isBlank = false := Secret.usable_of_computed (by decide +kernel) key derived
  have made : ∀ stream ≤ maxContext, ∃ tag : Tag, tag.decode key = some stream := by
    intro stream range
    exact ⟨_, Tag.decode_encode (by rw [Tag.encode, if_neg (Nat.not_lt.mpr range), usable]; rfl)⟩
  obtain ⟨three, decoded⟩ := made 3 (by decide)
  obtain ⟨four, decoded'⟩ := made 4 (by decide)
  obtain ⟨six, decoded''⟩ := made 6 (by decide)
  let route : Route := ⟨⟨1⟩, ⟨0⟩⟩
  let entry := fun window => Entry.mk (.repeated 5) key .bob window
  have opened : (ofWindow 2).expect route (.repeated 5) .bob 3 =
      .ok (single 2 route (entry (.fresh 2 3))) := by
    simp [Roster.expect, Role.peer, derived, single, entry, ofWindow, Table.insert,
      Table.insertEntry, Table.empty]
  let start := single 2 route (entry (.fresh 2 3))
  have opens : Opens 2 (Function.update (fun _ => none) route (some ⟨.repeated 5, .bob, 3⟩))
      start := .expect .nothing opened
  have decides : start.Decides six := fun _ _ _ _ found found' _ _ =>
    (find?_single found').1.trans (find?_single found).1.symm
  have answered : start.recogniseAll [four, six, three] =
      ([some ⟨route, .repeated 5, 4, .bob⟩, none, some ⟨route, .repeated 5, 3, .bob⟩],
        single 2 route (entry ⟨5, [false, false]⟩)) := by
    have late : start.recognise four = (some ⟨route, .repeated 5, 4, .bob⟩,
        single 2 route (entry ⟨3, [false, true]⟩)) :=
      recognise_single 2 route (entry (.fresh 2 3)) decoded'
    have far : (single 2 route (entry ⟨3, [false, true]⟩)).recognise six =
        (none, single 2 route (entry ⟨3, [false, true]⟩)) :=
      recognise_single 2 route (entry ⟨3, [false, true]⟩) decoded''
    have first : (single 2 route (entry ⟨3, [false, true]⟩)).recognise three =
        (some ⟨route, .repeated 5, 3, .bob⟩, single 2 route (entry ⟨5, [false, false]⟩)) :=
      recognise_single 2 route (entry ⟨3, [false, true]⟩) decoded
    simp only [recogniseAll, late, far, first]
  have recognised : (start.recogniseAll [four, six, three]).2.recognise six =
      (some ⟨route, .repeated 5, 6, .bob⟩, single 2 route (entry ⟨5, [false, true]⟩)) := by
    rw [answered]
    exact recognise_single 2 route (entry ⟨5, [false, false]⟩) decoded''
  refine ⟨_, start, opens, three, four, six, decides, by rw [answered]; rfl, _, rfl,
    by rw [recognised], ?_⟩
  exact ((recognises_open_streams opens [four, six, three] decides).1 _).mp (by rw [recognised])

end Roster

end Courier
