import Courier.Proofs.Connection.Sealing
import Courier.Proofs.Connection.Writing
import Courier.Proofs.Mailbox.Lanes
import Courier.Session.Memory
import Mathlib.Data.List.Nodup

/-! # No frame key meets a nonce twice

Two derived secrets could be equal by accident, so what is shown to be unique is
how a key was derived: from which root, for which transport, through which
periods, for which side and which stream. A mailbox does not store this, so it
is recorded next to the mailbox while operations are applied. Streams count
from zero again after a rotation; the paths still differ because the list of
periods has grown.
-/

namespace Courier

/-- How the secret of a lane was derived, and for which side. -/
structure Trail where
  root : Secret
  role : Role
  transport : TransportIndex
  periods : List Nat
  deriving DecidableEq

/-- The secret that a trail leads to. -/
def Trail.secret (trail : Trail) : Except CryptoFault Secret := do
  let first ← trail.root.derive (.transportSecret trail.transport.number)
  trail.periods.foldlM (fun secret period => secret.derive (.periodSecret period)) first

/-- The secret of a trail that is one period longer. -/
theorem Trail.secret_append {trail : Trail} {secret next : Secret} {period : Nat}
    (derived : trail.secret = .ok secret) (moved : secret.derive (.periodSecret period) = .ok next) :
    ({ trail with periods := trail.periods ++ [period] } : Trail).secret = .ok next := by
  simp only [Trail.secret] at derived ⊢
  cases first : trail.root.derive _ with
  | error fault => rw [first] at derived; cases derived
  | ok secret =>
      simp only [first, bind, Except.bind] at derived ⊢
      simp [List.foldlM_append, derived, moved, bind, Except.bind, pure, Except.pure]

/-- How a frame key was derived. -/
structure KeyPath where
  trail : Trail
  stream : Nat
  deriving DecidableEq

/-- The frame key that a path leads to. -/
def KeyPath.frameKey (path : KeyPath) : Except CryptoFault Secret := do
  let secret ← path.trail.secret
  secret.derive (.frameKey path.trail.role path.stream)

/-- A mailbox, and how the secret of each lane was derived. -/
structure Traced where
  mailbox : Mailbox := {}
  trails : Route → Trail := fun route => ⟨.blank, .alice, route.transport, []⟩

namespace Traced

open Mailbox (Operation)

/-- How lanes were derived once an operation was applied. -/
def trailsAfter (t : Traced) : Operation → Route → Trail
  | .addContact contact root role transports, route =>
      if route.contact = contact ∧ (Conversation.start root role transports).isOk then
        ⟨root, role, route.transport, []⟩
      else
        t.trails route
  | .rotate contact, route =>
      match t.mailbox.rotatedInto? contact route with
      | some period => { t.trails route with periods := (t.trails route).periods ++ [period] }
      | none => t.trails route
  | _, route => t.trails route

def step (t : Traced) (operation : Operation) : Traced :=
  ⟨operation.apply t.mailbox, t.trailsAfter operation⟩

/-- The context that an operation hands out, with the path of its frame key. -/
def handedBy (t : Traced) : Operation → List (KeyPath × Context)
  | .context route =>
      match (t.mailbox.context route).1 with
      | .ok (some context) => [(⟨t.trails route, context.stream⟩, context)]
      | _ => []
  | _ => []

/-- The contexts that operations hand out one after the other. -/
def handed : List Operation → Traced → List (KeyPath × Context)
  | [], _ => []
  | operation :: operations, t => t.handedBy operation ++ handed operations (t.step operation)

/-- The roots that operations add, each with the local side. -/
def added (operations : List Operation) : List (Secret × Role) :=
  operations.filterMap fun
    | .addContact _ root role _ => some (root, role)
    | _ => none

end Traced

/-- The key of a later stream of the same lane, or of a lane that rotated since. -/
def KeyPath.Behind (path : KeyPath) (trail : Trail) (next : Nat) : Prop :=
  path.trail.periods.length < trail.periods.length ∨
    path.trail.periods = trail.periods ∧ path.stream < next

namespace Traced

open Mailbox (Operation)

/-- What holds after roots were added and contexts handed out. -/
structure Sound (roots : List (Secret × Role)) (sofar : List (KeyPath × Context)) (t : Traced) :
    Prop where
  lane : ∀ {route role lane}, t.mailbox.lane? route = some (role, lane) →
    (t.trails route).transport = route.transport ∧ (t.trails route).role = role ∧
      ((t.trails route).root, role) ∈ roots ∧ (t.trails route).secret = .ok lane.secret
  /-- A root belongs to one contact. -/
  apart : ∀ {route other own its}, t.mailbox.lane? route = some own →
    t.mailbox.lane? other = some its → (t.trails route).root = (t.trails other).root →
    route.contact = other.contact
  /-- Lanes have moved past all that was handed out. -/
  behind : ∀ {item route role lane}, item ∈ sofar → t.mailbox.lane? route = some (role, lane) →
    item.1.trail.root = (t.trails route).root →
    item.1.trail.transport = (t.trails route).transport →
    item.1.Behind (t.trails route) lane.next
  path : ∀ item ∈ sofar, (item.1.trail.root, item.1.trail.role) ∈ roots ∧
    item.1.frameKey = item.2.secret.derive (.frameKey item.2.role item.2.stream)
  distinct : (sofar.map (·.1)).Nodup

variable {roots : List (Secret × Role)} {sofar : List (KeyPath × Context)} {t : Traced}

theorem sound_empty : Sound [] [] {} where
  lane := by intro route role lane found; simp [Mailbox.lane?, Mailbox.conversation?] at found
  apart := by intro route other own its found; simp [Mailbox.lane?, Mailbox.conversation?] at found
  behind := by intro item route role lane member; cases member
  path := by intro item member; cases member
  distinct := List.nodup_nil

theorem Sound.keepsLanes {operation : Operation} (sound : t.Sound roots sofar)
    (keeps : operation.keepsLanes = true) : (t.step operation).Sound roots sofar := by
  have trails : t.trailsAfter operation = t.trails := by
    cases operation with
    | addContact | rotate => cases keeps
    | _ => rfl
  have earlier : ∀ {route role lane}, (t.step operation).mailbox.lane? route = some (role, lane) →
      t.mailbox.lane? route = some (role, lane) := Mailbox.lane?_apply keeps
  constructor
  case lane =>
    intro route role lane found
    rw [step, trails]
    exact sound.lane (earlier found)
  case apart =>
    intro route other own its found itsFound
    rw [step, trails]
    exact sound.apart (earlier found) (earlier itsFound)
  case behind =>
    intro item route role lane member found
    rw [step, trails]
    exact sound.behind member (earlier found)
  case path => exact sound.path
  case distinct => exact sound.distinct

/-! A lane after an operation, and how it was derived, from what was there before. -/

variable {route : Route} {contact : ContactId} {side : Role} {lane' : Lane}

/-- A lane is there after a contact was added if it was there before and its trail has not changed,
    or if it is a new lane of the contact. -/
theorem lane?_step_addContact {root : Secret} {role : Role} {transports : List TransportIndex}
    (found : (t.step (.addContact contact root role transports)).mailbox.lane? route =
      some (side, lane')) :
    (t.mailbox.lane? route = some (side, lane') ∧
      t.trailsAfter (.addContact contact root role transports) route = t.trails route) ∨
    route.contact = contact ∧ side = role ∧
      t.trailsAfter (.addContact contact root role transports) route =
        ⟨root, role, route.transport, []⟩ ∧
      ∃ secret, root.derive (.transportSecret route.transport.number) = .ok secret ∧
        lane' = { secret } := by
  rcases Mailbox.lane?_addContact found with ⟨before, other⟩ | ⟨same, own, c, started, derived⟩
  · refine .inl ⟨before, ?_⟩
    simp only [trailsAfter]
    rw [if_neg]
    rintro ⟨same, ok⟩
    cases started : Conversation.start root role transports with
    | error fault => rw [started] at ok; cases ok
    | ok c => exact other same c started
  · exact .inr ⟨same, own, by simp [trailsAfter, same, started, Except.isOk, Except.toBool],
      derived⟩

/-- A rotation keeps each lane as it is, or moves it into one more period. -/
theorem lane?_step_rotate
    (found : (t.step (.rotate contact)).mailbox.lane? route = some (side, lane')) :
    ∃ lane, t.mailbox.lane? route = some (side, lane) ∧
      ((t.trailsAfter (.rotate contact) route = t.trails route ∧ lane' = lane) ∨ ∃ period,
        t.trailsAfter (.rotate contact) route =
            { t.trails route with periods := (t.trails route).periods ++ [period] } ∧
          lane.secret.derive (.periodSecret period) = .ok lane'.secret) := by
  rcases Mailbox.lane?_rotate found with ⟨still, before⟩ | ⟨period, lane, moved, before, next, -⟩
  · exact ⟨lane', before, .inl ⟨by simp [trailsAfter, still], rfl⟩⟩
  · exact ⟨lane, before, .inr ⟨period, by simp [trailsAfter, moved], next⟩⟩

/-- A rotation leaves the roots. -/
theorem root_step_rotate
    (found : (t.step (.rotate contact)).mailbox.lane? route = some (side, lane')) :
    (t.trailsAfter (.rotate contact) route).root = (t.trails route).root := by
  obtain ⟨lane, -, ⟨trail, -⟩ | ⟨period, trail, -⟩⟩ := lane?_step_rotate found <;> rw [trail]

theorem Sound.addContact (sound : t.Sound roots sofar) {root : Secret} {role : Role}
    {transports : List TransportIndex} (fresh : root ∉ roots.map (·.1)) :
    (t.step (.addContact contact root role transports)).Sound (roots ++ [(root, role)]) sofar := by
  have known : ∀ {side}, (root, side) ∉ roots := fun member => fresh (List.mem_map_of_mem member)
  constructor
  case lane =>
    intro route side lane found
    simp only [step]
    rcases lane?_step_addContact found with ⟨before, trail⟩ | ⟨same, rfl, trail, secret, derived, rfl⟩
    · rw [trail]
      obtain ⟨transport, own, member, derived⟩ := sound.lane before
      exact ⟨transport, own, List.mem_append_left _ member, derived⟩
    · rw [trail]
      refine ⟨rfl, rfl, by simp, ?_⟩
      simp [Trail.secret, derived, bind, Except.bind, pure, Except.pure]
  case apart =>
    intro route other own its found itsFound
    simp only [step]
    rcases lane?_step_addContact found with ⟨before, trail⟩ | ⟨same, -, trail, -⟩ <;>
      rcases lane?_step_addContact itsFound with ⟨itsBefore, itsTrail⟩ | ⟨itsSame, -, itsTrail, -⟩ <;>
      rw [trail, itsTrail]
    · exact sound.apart before itsBefore
    · intro root_eq
      exact absurd (root_eq ▸ (sound.lane before).2.2.1) known
    · intro root_eq
      exact absurd (root_eq ▸ (sound.lane itsBefore).2.2.1) known
    · intro _
      rw [same, itsSame]
  case behind =>
    intro item route side lane member found
    simp only [step]
    rcases lane?_step_addContact found with ⟨before, trail⟩ | ⟨same, -, trail, -⟩
    · rw [trail]
      exact sound.behind member before
    · rw [trail]
      intro root_eq
      exact absurd (root_eq ▸ (sound.path item member).1) known
  case path =>
    intro item member
    obtain ⟨rooted, derived⟩ := sound.path item member
    exact ⟨List.mem_append_left _ rooted, derived⟩
  case distinct => exact sound.distinct

theorem Sound.rotate (sound : t.Sound roots sofar) (contact : ContactId) :
    (t.step (.rotate contact)).Sound roots sofar := by
  constructor
  case lane =>
    intro route role lane' found
    obtain ⟨lane, before, ⟨trail, rfl⟩ | ⟨period, trail, next⟩⟩ := lane?_step_rotate found
    · simp only [step, trail]
      exact sound.lane before
    · obtain ⟨transport, own, member, derived⟩ := sound.lane before
      simp only [step, trail]
      exact ⟨transport, own, member, Trail.secret_append derived next⟩
  case apart =>
    intro route other own its found itsFound
    obtain ⟨side, lane⟩ := own
    obtain ⟨itsSide, itsLane⟩ := its
    simp only [step]
    rw [root_step_rotate found, root_step_rotate itsFound]
    obtain ⟨_, before, -⟩ := lane?_step_rotate found
    obtain ⟨_, itsBefore, -⟩ := lane?_step_rotate itsFound
    exact sound.apart before itsBefore
  case behind =>
    intro item route role lane' member found
    obtain ⟨lane, before, ⟨trail, rfl⟩ | ⟨period, trail, next⟩⟩ := lane?_step_rotate found
    · simp only [step, trail]
      exact sound.behind member before
    · simp only [step, trail]
      intro root transport
      refine .inl ?_
      rcases sound.behind member before root transport with older | ⟨same, -⟩
      · simp only [List.length_append, List.length_singleton]
        omega
      · simp [same]
  case path => exact sound.path
  case distinct => exact sound.distinct

/-- The root tells the contact, and the trail the transport. -/
theorem Sound.eq_of_root (sound : t.Sound roots sofar) {other : Route} {own its : Role × Lane}
    (found : t.mailbox.lane? route = some own) (itsFound : t.mailbox.lane? other = some its)
    (root : (t.trails route).root = (t.trails other).root)
    (transport : (t.trails route).transport = (t.trails other).transport) : route = other := by
  have contact := sound.apart found itsFound root
  obtain ⟨side, lane⟩ := own
  obtain ⟨itsSide, itsLane⟩ := its
  rw [(sound.lane found).1, (sound.lane itsFound).1] at transport
  cases route
  cases other
  cases contact
  cases transport
  rfl

/-- The path of the next stream has not been handed out. -/
theorem Sound.next_notMem (sound : t.Sound roots sofar) {lane : Lane}
    (known : t.mailbox.lane? route = some (side, lane)) :
    (⟨t.trails route, lane.next⟩ : KeyPath) ∉ sofar.map (·.1) := by
  intro among
  obtain ⟨item, member, same⟩ := List.mem_map.mp among
  have trail : item.1.trail = t.trails route := congrArg KeyPath.trail same
  have stream : item.1.stream = lane.next := congrArg KeyPath.stream same
  rcases sound.behind member known (congrArg Trail.root trail) (congrArg Trail.transport trail)
    with shorter | ⟨-, below⟩
  · rw [trail] at shorter
    exact Nat.lt_irrefl _ shorter
  · rw [stream] at below
    exact Nat.lt_irrefl _ below

/-- A lane whose next stream is handed out goes on to the stream after that, and the path of the
    stream is that of the lane. -/
private theorem Sound.handsOut (sound : t.Sound roots sofar) {used : Route} {c : Conversation}
    {lane : Lane} (held : t.mailbox.conversation? used.contact = some c)
    (here : c.lanes.find? used.transport = some lane)
    (handed : t.mailbox.context used =
      (.ok (some { route := used, secret := lane.secret, stream := lane.next, role := c.role }),
        t.mailbox.setConversation used.contact
          { c with
            lanes := c.lanes.insert used.transport { lane with next := lane.next + 1 } })) :
    (t.step (.context used)).Sound roots (sofar ++
      [(⟨t.trails used, lane.next⟩,
        { route := used, secret := lane.secret, stream := lane.next, role := c.role })]) := by
  have known : t.mailbox.lane? used = some (c.role, lane) :=
    (Mailbox.lane?_eq_some_iff ..).mpr ⟨c, held, here, rfl⟩
  have cases_lane : ∀ {route role lane'},
      (t.step (.context used)).mailbox.lane? route = some (role, lane') →
      route ≠ used ∧ t.mailbox.lane? route = some (role, lane') ∨
        route = used ∧ role = c.role ∧ lane' = { lane with next := lane.next + 1 } := by
    intro route role lane' found
    simp only [step, Operation.apply, handed] at found
    exact Mailbox.lane?_useStream held found
  have earlier : ∀ {route role lane'},
      (t.step (.context used)).mailbox.lane? route = some (role, lane') →
      ∃ lane, t.mailbox.lane? route = some (role, lane) ∧ lane.secret = lane'.secret := by
    intro route role lane' found
    rcases cases_lane found with ⟨-, before⟩ | ⟨rfl, rfl, rfl⟩
    · exact ⟨lane', before, rfl⟩
    · exact ⟨lane, known, rfl⟩
  constructor
  case lane =>
    intro route role lane' found
    obtain ⟨lane, before, same⟩ := earlier found
    rw [← same]
    exact sound.lane before
  case apart =>
    intro route other own its found itsFound
    obtain ⟨side, lane⟩ := own
    obtain ⟨itsSide, itsLane⟩ := its
    obtain ⟨_, before, -⟩ := earlier found
    obtain ⟨_, itsBefore, -⟩ := earlier itsFound
    exact sound.apart before itsBefore
  case behind =>
    intro item route role lane' among found root transport
    rcases List.mem_append.mp among with older | new
    · rcases cases_lane found with ⟨-, before⟩ | ⟨rfl, rfl, rfl⟩
      · exact sound.behind older before root transport
      · rcases sound.behind older known root transport with shorter | ⟨same, below⟩
        · exact .inl shorter
        · exact .inr ⟨same, Nat.lt_succ_of_lt below⟩
    · obtain rfl := List.mem_singleton.mp new
      rcases cases_lane found with ⟨other, before⟩ | ⟨rfl, rfl, rfl⟩
      · exact absurd (sound.eq_of_root known before root transport).symm other
      · exact .inr ⟨rfl, Nat.lt_succ_self _⟩
  case path =>
    intro item among
    rcases List.mem_append.mp among with older | new
    · exact sound.path item older
    · obtain rfl := List.mem_singleton.mp new
      obtain ⟨-, own, member, derived⟩ := sound.lane known
      exact ⟨own ▸ member, by simp [KeyPath.frameKey, derived, own, bind, Except.bind]⟩
  case distinct =>
    rw [List.map_append, List.map_singleton, ← List.concat_eq_append]
    exact (List.nodup_concat ..).mpr ⟨sound.next_notMem known, sound.distinct⟩

theorem Sound.context (sound : t.Sound roots sofar) (used : Route) :
    (t.step (.context used)).Sound roots (sofar ++ t.handedBy (.context used)) := by
  rcases Mailbox.context_cases t.mailbox used with
    ⟨fault, refused⟩ | none | ⟨c, lane, held, here, -, handed⟩
  · have same : t.step (.context used) = t := by
      simp only [step, Operation.apply, refused]
      rfl
    simpa [same, handedBy, refused] using sound
  · have same : t.step (.context used) = t := by
      simp only [step, Operation.apply, none]
      rfl
    simpa [same, handedBy, none] using sound
  · have made : t.handedBy (.context used) =
        [(⟨t.trails used, lane.next⟩,
          { route := used, secret := lane.secret, stream := lane.next, role := c.role })] := by
      simp [handedBy, handed]
    rw [made]
    exact sound.handsOut held here handed

/-- A run of operations that adds no root twice keeps everything sound. -/
theorem Sound.run (operations : List Operation) {roots : List (Secret × Role)}
    {sofar : List (KeyPath × Context)} {t : Traced} (sound : t.Sound roots sofar)
    (once : ((roots ++ added operations).map (·.1)).Nodup) :
    (operations.foldl step t).Sound (roots ++ added operations)
      (sofar ++ handed operations t) := by
  induction operations generalizing roots sofar t with
  | nil => simpa [added, handed] using sound
  | cons operation operations ih =>
      have next : (t.step operation).Sound (roots ++ added [operation])
          (sofar ++ t.handedBy operation) := by
        cases operation with
        | addContact contact root role transports =>
            have fresh : root ∉ roots.map (·.1) := by
              simp only [added, List.filterMap_cons, List.map_append, List.map_cons,
                List.nodup_append] at once
              exact fun member => once.2.2 root member root (List.mem_cons_self ..) rfl
            simpa [added, handedBy] using sound.addContact fresh
        | rotate contact => simpa [added, handedBy] using sound.rotate contact
        | context route => simpa [added] using sound.context route
        | _ => simpa [added, handedBy] using sound.keepsLanes rfl
      have split : added (operation :: operations) = added [operation] ++ added operations := by
        simp [added, ← List.filterMap_append]
      rw [split, ← List.append_assoc] at once ⊢
      rw [handed, ← List.append_assoc, List.foldl_cons]
      exact ih next once

end Traced

/-! ## All seals of a run -/

/-- What is done with one context: a writer is made of it and driven. -/
structure Use : Type 1 where
  δ : Type
  device : δ
  capacity : Nat
  transportLimit : Nat
  calls : List (Sink δ × FrameWriter.Call)

/-- The seals of the writer that is made of a context. -/
def Use.seals (use : Use) (context : Context) : List Seal :=
  match FrameWriter.ofContext context use.device use.capacity use.transportLimit with
  | .ok w => w.sealsOfCalls use.calls
  | .error _ => []

/-- All seals of the contexts that were handed out, each context put to one use, and the path of
    the key of each seal. Contexts left over stay unused. -/
def sealsOfUses (handed : List (KeyPath × Context)) (uses : List Use) : List (KeyPath × Seal) :=
  (handed.zip uses).flatMap fun (item, use) => (use.seals item.2).map fun made => (item.1, made)

theorem Use.key_of_seals (use : Use) {context : Context} {made : Seal}
    (member : made ∈ use.seals context) :
    context.secret.derive (.frameKey context.role context.stream) = .ok made.key := by
  simp only [Use.seals] at member
  split at member
  next w made_of =>
    obtain ⟨-, tag, key, -, derived, rfl⟩ := (FrameWriter.make_eq_ok_iff ..).mp made_of
    have same : made.key = key := (FrameWriter.nonces_of_calls _ _ made member).1
    rw [derived, same]
  · cases member

theorem Use.nodup_nonces (use : Use) (context : Context) :
    ((use.seals context).map (·.nonce)).Nodup := by
  simp only [Use.seals]
  split
  · exact FrameWriter.nodup_nonces _ _
  · exact List.nodup_nil

theorem exists_of_mem_sealsOfUses {handed : List (KeyPath × Context)} {uses : List Use}
    {entry : KeyPath × Seal} (member : entry ∈ sealsOfUses handed uses) :
    ∃ item ∈ handed, entry.1 = item.1 ∧ ∃ use : Use, entry.2 ∈ use.seals item.2 := by
  obtain ⟨⟨item, use⟩, paired, inside⟩ := List.mem_flatMap.mp member
  obtain ⟨made, sealed, rfl⟩ := List.mem_map.mp inside
  exact ⟨item, (List.of_mem_zip paired).1, rfl, use, sealed⟩

/-- Contexts with different paths never share a path and a nonce. -/
theorem nodup_sealsOfUses {handed : List (KeyPath × Context)}
    (distinct : (handed.map (·.1)).Nodup) (uses : List Use) :
    ((sealsOfUses handed uses).map fun entry => (entry.1, entry.2.nonce)).Nodup := by
  induction handed generalizing uses with
  | nil => exact List.nodup_nil
  | cons item handed ih =>
      cases uses with
      | nil => exact List.nodup_nil
      | cons use uses =>
          obtain ⟨fresh, distinct⟩ := List.nodup_cons.mp distinct
          simp only [sealsOfUses, List.zip_cons_cons, List.flatMap_cons, List.map_append,
            List.map_map]
          refine List.nodup_append.mpr ⟨?_, ih distinct uses, ?_⟩
          · have nonces := use.nodup_nonces item.2
            rw [← List.nodup_map_iff (f := fun nonce => (item.1, nonce))
              (fun nonce other same => (Prod.mk.inj same).2), List.map_map] at nonces
            exact nonces
          · rintro entry first other later rfl
            obtain ⟨made, -, rfl⟩ := List.mem_map.mp first
            obtain ⟨entry, among, same⟩ := List.mem_map.mp later
            obtain ⟨item', member, path, -⟩ := exists_of_mem_sealsOfUses among
            exact fresh (List.mem_map.mpr ⟨item', member, path ▸ (Prod.mk.inj same).1⟩)

namespace Traced

open Mailbox (Operation)

/-- The seals of one mailbox: made under the keys of their paths, from roots that were added, and
    never twice under one path and nonce. -/
theorem seals_of_run {operations : List Operation} (uses : List Use)
    (once : ((added operations).map (·.1)).Nodup) :
    (∀ entry ∈ sealsOfUses (handed operations {}) uses, entry.1.frameKey = .ok entry.2.key ∧
      (entry.1.trail.root, entry.1.trail.role) ∈ added operations) ∧
      ((sealsOfUses (handed operations {}) uses).map
        fun entry => (entry.1, entry.2.nonce)).Nodup := by
  have sound := sound_empty.run operations (by simpa using once)
  rw [List.nil_append, List.nil_append] at sound
  refine ⟨fun entry member => ?_, nodup_sealsOfUses sound.distinct uses⟩
  obtain ⟨item, among, path, use, sealed⟩ := exists_of_mem_sealsOfUses member
  obtain ⟨rooted, derived⟩ := sound.path item among
  rw [path]
  exact ⟨derived.trans (use.key_of_seals sealed), rooted⟩

/-- Two mailboxes go through any operations, and all contexts that they hand out are used for
    connections, over any sinks. If no root is added twice to a mailbox, nor to both for the same
    side, then all seals are made under the keys of their paths, and no two of them share path and
    nonce. -/
theorem nodup_seals {operations itsOperations : List Operation} (uses itsUses : List Use)
    (once : ((added operations).map (·.1)).Nodup)
    (itsOnce : ((added itsOperations).map (·.1)).Nodup)
    (opposite : ∀ root role itsRole, (root, role) ∈ added operations →
      (root, itsRole) ∈ added itsOperations → role ≠ itsRole) :
    let made := sealsOfUses (handed operations {}) uses ++
      sealsOfUses (handed itsOperations {}) itsUses
    (∀ entry ∈ made, entry.1.frameKey = .ok entry.2.key) ∧
      (made.map fun entry => (entry.1, entry.2.nonce)).Nodup := by
  obtain ⟨keyed, distinct⟩ := seals_of_run uses once
  obtain ⟨itsKeyed, itsDistinct⟩ := seals_of_run itsUses itsOnce
  refine ⟨?_, ?_⟩
  · intro entry member
    rcases List.mem_append.mp member with own | its
    · exact (keyed entry own).1
    · exact (itsKeyed entry its).1
  · rw [List.map_append]
    refine List.nodup_append.mpr ⟨distinct, itsDistinct, ?_⟩
    rintro pair own other its rfl
    obtain ⟨entry, member, same⟩ := List.mem_map.mp own
    obtain ⟨itsEntry, itsMember, itsSame⟩ := List.mem_map.mp its
    have path : itsEntry.1 = entry.1 := (Prod.mk.inj (itsSame.trans same.symm)).1
    have itsRooted := (itsKeyed itsEntry itsMember).2
    rw [path] at itsRooted
    exact opposite _ _ _ (keyed entry member).2 itsRooted rfl

set_option maxRecDepth 100000 in
/-- Three connections of two frames each, one of them after a rotation. -/
theorem nodup_seals_across_rotation :
    let operations : List Operation :=
      [.addContact ⟨2⟩ (.repeated 7) .alice [⟨0⟩], .context ⟨⟨2⟩, ⟨0⟩⟩, .rotate ⟨2⟩,
        .context ⟨⟨2⟩, ⟨0⟩⟩]
    let itsOperations : List Operation :=
      [.addContact ⟨1⟩ (.repeated 7) .bob [⟨0⟩], .context ⟨⟨1⟩, ⟨0⟩⟩]
    let use : Use := ⟨Memory.Outbound, {}, 1000, 1000,
      [(Memory.sink {}, .write [1] false), (Memory.sink {}, .finish)]⟩
    let made := sealsOfUses (handed operations {}) [use, use] ++
      sealsOfUses (handed itsOperations {}) [use]
    ((added operations).map (·.1)).Nodup ∧ ((added itsOperations).map (·.1)).Nodup ∧
      (∀ root role itsRole, (root, role) ∈ added operations →
        (root, itsRole) ∈ added itsOperations → role ≠ itsRole) ∧
      made.length = 12 ∧ (∀ entry ∈ made, entry.1.frameKey = .ok entry.2.key) ∧
      (made.map fun entry => (entry.1, entry.2.nonce)).Nodup := by
  intro operations itsOperations use made
  have once : ((added operations).map (·.1)).Nodup := by simp [operations, added]
  have itsOnce : ((added itsOperations).map (·.1)).Nodup := by simp [itsOperations, added]
  have opposite : ∀ root role itsRole, (root, role) ∈ added operations →
      (root, itsRole) ∈ added itsOperations → role ≠ itsRole := by
    intro root role itsRole own its
    simp only [operations, itsOperations, added, List.filterMap_cons, List.filterMap_nil,
      List.mem_singleton, Prod.mk.injEq] at own its
    rw [own.2, its.2]
    exact Role.noConfusion
  exact ⟨once, itsOnce, opposite, by decide +kernel,
    nodup_seals [use, use] [use] once itsOnce opposite⟩

end Traced

end Courier
