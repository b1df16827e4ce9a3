import Courier.Proofs.Mailbox.Lanes

/-! # Mailboxes that share a root

Two mailboxes that were told of each other with one root, and rotated equally
often, hold the same secret for every transport that both were told of. A roster
that expects the connections of a mailbox has one entry for each lane, with the
tag key of the other side and nothing accepted yet.
-/

namespace Courier

/-- The secret of a transport after so many rotations. -/
def Secret.inPeriod (root : Secret) (transport : TransportIndex) :
    Nat → Except CryptoFault Secret
  | 0 => root.derive (.transportSecret transport.number)
  | period + 1 => do
      let secret ← inPeriod root transport period
      secret.derive (.periodSecret (period + 1))

namespace Conversation

theorem find?_rotateLanes_isSome {period : Nat} {entries : List (TransportIndex × Lane)}
    {lanes : Table TransportIndex Lane} {transport : TransportIndex}
    (known : (lanes.find? transport).isSome) :
    ((rotateLanes period entries lanes).2.find? transport).isSome := by
  induction entries generalizing lanes with
  | nil => exact known
  | cons entry entries ih =>
      simp only [rotateLanes]
      split
      · refine ih ?_
        rw [Table.find?_insert]
        split
        · rfl
        · exact known
      · exact known

theorem rotated_of_rotateLanes {period : Nat} {entries : List (TransportIndex × Lane)}
    {lanes lanes' : Table TransportIndex Lane}
    (moved : rotateLanes period entries lanes = (.ok (), lanes')) :
    rotated period entries = entries.map (·.1) := by
  induction entries generalizing lanes with
  | nil => rfl
  | cons entry entries ih =>
      simp only [rotateLanes] at moved
      split at moved
      next secret derived =>
        have first : (entry.2.secret.derive (.periodSecret period)).isOk = true := by
          rw [derived]
          rfl
        have more : rotated period (entry :: entries) = entry.1 :: rotated period entries := by
          simp [rotated, first]
        rw [more, ih moved, List.map_cons]
      · cases moved

/-- A rotation that succeeds moves every lane. -/
theorem find?_of_rotateLanes {period : Nat} {lanes lanes' : Table TransportIndex Lane}
    (moved : rotateLanes period lanes.entries lanes = (.ok (), lanes'))
    {transport : TransportIndex} {lane : Lane} (found : lanes.find? transport = some lane) :
    ∃ secret, lane.secret.derive (.periodSecret period) = .ok secret ∧
      lanes'.find? transport = some { secret } := by
  have known : (lanes'.find? transport).isSome := by
    have kept : ((rotateLanes period lanes.entries lanes).2.find? transport).isSome :=
      find?_rotateLanes_isSome (Option.isSome_iff_exists.mpr ⟨lane, found⟩)
    rwa [moved] at kept
  obtain ⟨lane', here⟩ := Option.isSome_iff_exists.mp known
  have after : (rotateLanes period lanes.entries lanes).2.find? transport = some lane' := by
    rw [moved]
    exact here
  have member := (lanes.find?_eq_some_iff transport lane).mp found
  rcases find?_rotateLanes after with ⟨still, -⟩ | ⟨before, among, -, derived, next⟩
  · rw [rotated_of_rotateLanes moved] at still
    exact absurd (List.mem_map_of_mem member) still
  · have same := (lanes.find?_eq_some_iff transport before).mpr among
    rw [found, Option.some.injEq] at same
    subst same
    obtain ⟨secret, stream⟩ := lane'
    obtain rfl : stream = 0 := next
    exact ⟨secret, derived, here⟩

theorem lanes_of_rotate {c c' : Conversation} {period : Nat}
    (rotated : c.rotate = (.ok period, c')) :
    ∃ lanes, rotateLanes (c.period + 1) c.lanes.entries c.lanes = (.ok (), lanes) ∧
      c' = { c with lanes, period := c.period + 1 } := by
  simp only [rotate] at rotated
  split at rotated
  next lanes moved =>
    obtain ⟨-, rfl⟩ := Prod.mk.inj rotated
    exact ⟨lanes, moved, rfl⟩
  · cases rotated

end Conversation

namespace Mailbox

/-- A contact was added with a root, and then rotated so many times, whatever became of others. -/
inductive Introduced (contact : ContactId) (root : Secret) (role : Role)
    (transports : List TransportIndex) : Nat → Mailbox → Prop where
  | added {m m' : Mailbox} (added : m.addContact contact root role transports = (.ok (), m')) :
      Introduced contact root role transports 0 m'
  | rotated {count period : Nat} {m m' : Mailbox}
      (before : Introduced contact root role transports count m)
      (rotated : m.rotate contact = (.ok period, m')) :
      Introduced contact root role transports (count + 1) m'
  | besides {count : Nat} {m m' : Mailbox}
      (before : Introduced contact root role transports count m)
      (same : m'.conversation? contact = m.conversation? contact) :
      Introduced contact root role transports count m'

variable {m : Mailbox} {contact : ContactId} {root : Secret} {role : Role}
  {transports : List TransportIndex} {count : Nat}

/-- Nothing was sent or received yet, and the secrets come from the root alone. -/
theorem Introduced.conversation (introduced : m.Introduced contact root role transports count) :
    ∃ lanes, m.conversation? contact = some { role, period := count, lanes } ∧
      ∀ transport ∈ transports, ∃ secret, root.inPeriod transport count = .ok secret ∧
        lanes.find? transport = some { secret } := by
  induction introduced with
  | added added =>
      simp only [addContact] at added
      split at added
      next c started =>
        obtain ⟨-, rfl⟩ := Prod.mk.inj added
        have derived := fun transport => Conversation.derive_of_start started transport
        obtain ⟨lanes, rfl⟩ := Conversation.start_eq_ok started
        exact ⟨lanes, conversation?_setConversation_self _ _ _, derived⟩
      · cases added
  | rotated before rotated ih =>
      obtain ⟨lanes, found, secrets⟩ := ih
      simp only [rotate, update_of_conversation? found] at rotated
      split at rotated
      next moved =>
        obtain ⟨done, rfl⟩ := Prod.mk.inj moved
        obtain ⟨-, rfl⟩ := Prod.mk.inj rotated
        obtain ⟨lanes', moved, after⟩ :=
          Conversation.lanes_of_rotate (Prod.ext (Except.ok.inj done) rfl)
        refine ⟨lanes', ?_, fun transport member => ?_⟩
        · rw [conversation?_setConversation_self]
          exact congrArg some after
        · obtain ⟨secret, derived, lane⟩ := secrets transport member
          obtain ⟨next, later, here⟩ := Conversation.find?_of_rotateLanes moved lane
          exact ⟨next, by simp [Secret.inPeriod, derived, later, bind, Except.bind], here⟩
      · cases rotated
      · cases rotated
  | besides before same ih =>
      rw [same]
      exact ih

/-! ## Expecting connections -/

/-- What a roster expects on a lane. -/
def Expects (entries : Table Route Roster.Entry) (size : Nat) (route : Route) (lane : Lane)
    (role : Role) : Prop :=
  ∃ peerTagKey, lane.secret.derive (.tagKey role.peer) = .ok peerTagKey ∧
    entries.find? route =
      some { secret := lane.secret, peerTagKey, role, window := .fresh size 0 }

theorem mem_routes (m : Mailbox) (route : Route) (lane : Lane) (role : Role) :
    (route, lane, role) ∈ m.routes ↔ m.lane? route = some (role, lane) := by
  rw [lane?_eq_some_iff]
  simp only [routes, List.mem_flatMap, List.mem_map, Prod.exists, Prod.mk.injEq]
  constructor
  · rintro ⟨contact, c, held, transport, lane, here, rfl, rfl, rfl⟩
    exact ⟨c, (Table.find?_eq_some_iff ..).mpr held, (Table.find?_eq_some_iff ..).mpr here, rfl⟩
  · rintro ⟨c, held, here, rfl⟩
    exact ⟨route.contact, c, (Table.find?_eq_some_iff ..).mp held, route.transport, lane,
      (Table.find?_eq_some_iff ..).mp here, rfl, rfl, rfl⟩

/-- Once all lanes are expected, each of those walked is, and the others are as before. -/
theorem expects_of_expectRoutes {lanes : List (Route × Lane × Role)} {roster roster' : Roster}
    (expected : expectRoutes lanes roster = (.ok (), roster')) (route : Route)
    (lane : Lane) (role : Role)
    (only : ∀ other its, (route, other, its) ∈ lanes → other = lane ∧ its = role) :
    ((route, lane, role) ∈ lanes ∨ Expects roster.entries roster.windowSize route lane role) →
      Expects roster'.entries roster.windowSize route lane role := by
  induction lanes generalizing roster with
  | nil =>
      obtain rfl := (Prod.mk.inj expected).2
      rintro (none | before)
      · cases none
      · exact before
  | cons first lanes ih =>
      obtain ⟨firstRoute, firstLane, firstRole⟩ := first
      simp only [expectRoutes] at expected
      split at expected
      next between one =>
        simp only [Roster.expect] at one
        split at one
        next key derived =>
          obtain rfl := Except.ok.inj one
          have goesOn := ih expected (fun other its member => only other its (.tail _ member))
          intro held
          refine goesOn ?_
          by_cases same : firstRoute = route
          · subst same
            obtain ⟨rfl, rfl⟩ := only firstLane firstRole (List.mem_cons_self ..)
            exact .inr ⟨key, derived, Table.find?_insert_self ..⟩
          · rcases held with member | ⟨key, derived, found⟩
            · rcases List.mem_cons.mp member with here | later
              · exact absurd (Prod.mk.inj here).1.symm same
              · exact .inl later
            · exact .inr ⟨key, derived, by rw [Table.find?_insert_of_ne _ _ same, found]⟩
        · cases one
      · cases expected

/-- A roster that was freshly filled expects the first connection on every lane. -/
theorem expects_of_expectIncoming {size : Nat} {roster : Roster} {route : Route} {lane : Lane}
    (filled : m.expectIncoming (.ofWindow size) = (.ok (), roster))
    (known : m.lane? route = some (role, lane)) :
    Expects roster.entries (max size 1) route lane role := by
  refine expects_of_expectRoutes filled route lane role (fun other its member => ?_)
    (.inl ((mem_routes ..).mpr known))
  have same := (mem_routes ..).mp member
  rw [known, Option.some.injEq, Prod.mk.injEq] at same
  exact ⟨same.2.symm, same.1.symm⟩

end Mailbox

end Courier
