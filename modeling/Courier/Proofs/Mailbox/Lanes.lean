import Courier.Proofs.Mailbox.Operations
import Courier.Proofs.Secret

/-! # Where the secrets of lanes come from

A new conversation derives the secret of each lane from the root. A rotation
derives the next secret of every lane and counts its streams from zero again; if
a derivation fails, the lanes behind it stay in their period. Handing out keys
moves one lane on by one stream. No other operation touches a lane.
-/

namespace Courier

theorem mem_of_mapM {α β ε : Type} {f : α → Except ε β} {inputs : List α} {outputs : List β}
    (mapped : inputs.mapM f = .ok outputs) (output : β) :
    output ∈ outputs ↔ ∃ input ∈ inputs, f input = .ok output := by
  induction inputs generalizing outputs with
  | nil =>
      rw [List.mapM_nil] at mapped
      cases mapped
      simp
  | cons input inputs ih =>
      rw [List.mapM_cons] at mapped
      cases first : f input with
      | error fault => simp [first, bind, Except.bind] at mapped
      | ok value =>
          cases rest : inputs.mapM f with
          | error fault => simp [first, rest, bind, Except.bind] at mapped
          | ok values =>
              simp only [first, rest, bind, Except.bind, pure, Except.pure, Except.ok.injEq]
                at mapped
              subst mapped
              simp [ih rest, first, eq_comm]

theorem ok_of_mapM {α β ε : Type} {f : α → Except ε β} {inputs : List α} {outputs : List β}
    (mapped : inputs.mapM f = .ok outputs) {input : α} (member : input ∈ inputs) :
    ∃ output, f input = .ok output := by
  induction inputs generalizing outputs with
  | nil => cases member
  | cons head inputs ih =>
      rw [List.mapM_cons] at mapped
      cases first : f head with
      | error fault => simp [first, bind, Except.bind] at mapped
      | ok value =>
          cases rest : inputs.mapM f with
          | error fault => simp [first, rest, bind, Except.bind] at mapped
          | ok values =>
              rcases List.mem_cons.mp member with rfl | later
              · exact ⟨value, first⟩
              · exact ih rest later

namespace Conversation

/-! ## New conversations -/

/-- A new conversation has a lane for each of its transports, at its first stream. -/
theorem find?_lanes_start {root : Secret} {role : Role} {transports : List TransportIndex}
    {c : Conversation} (started : start root role transports = .ok c) (transport : TransportIndex)
    (lane : Lane) :
    c.lanes.find? transport = some lane ↔ transport ∈ transports ∧
      ∃ secret, root.derive (.transportSecret transport.number) = .ok secret ∧
        lane = { secret } := by
  simp only [start] at started
  generalize derive : (fun transport : TransportIndex => do
    let secret ← root.derive (.transportSecret transport.number)
    return (transport, { secret : Lane })) = derived at started
  have derived_iff : ∀ (first : TransportIndex) (entry : TransportIndex × Lane),
      derived first = .ok entry ↔ first = entry.1 ∧
        ∃ secret, root.derive (.transportSecret first.number) = .ok secret ∧
          entry.2 = { secret } := by
    intro first entry
    rw [← derive]
    obtain ⟨key, value⟩ := entry
    cases secret : root.derive (.transportSecret first.number) with
    | error fault => simp [secret, bind, Except.bind]
    | ok secret => simp [secret, bind, Except.bind, pure, Except.pure, eq_comm]
  cases lanes : transports.mapM derived with
  | error fault =>
      rw [lanes] at started
      cases started
  | ok entries =>
      rw [lanes] at started
      obtain rfl := Except.ok.inj started
      have member_iff : ∀ lane, (transport, lane) ∈ entries ↔ transport ∈ transports ∧
          ∃ secret, root.derive (.transportSecret transport.number) = .ok secret ∧
            lane = { secret } := by
        intro lane
        rw [mem_of_mapM lanes]
        constructor
        · rintro ⟨first, member, same⟩
          obtain ⟨rfl, from_root⟩ := (derived_iff first _).mp same
          exact ⟨member, from_root⟩
        · rintro ⟨member, from_root⟩
          exact ⟨transport, member, (derived_iff transport _).mpr ⟨rfl, from_root⟩⟩
      rw [← member_iff]
      constructor
      · exact Table.mem_of_find?_ofList
      · intro member
        obtain ⟨other, found⟩ := Table.find?_ofList_isSome member
        obtain ⟨-, secret, here, same⟩ := (member_iff lane).mp member
        obtain ⟨-, secret', here', same'⟩ := (member_iff other).mp (Table.mem_of_find?_ofList found)
        rw [here, Except.ok.injEq] at here'
        rw [found, same, same', here']

theorem derive_of_start {root : Secret} {role : Role} {transports : List TransportIndex}
    {c : Conversation} (started : start root role transports = .ok c) (transport : TransportIndex)
    (member : transport ∈ transports) :
    ∃ secret, root.derive (.transportSecret transport.number) = .ok secret ∧
      c.lanes.find? transport = some { secret } := by
  have derived : ∃ secret, root.derive (.transportSecret transport.number) = .ok secret := by
    simp only [start] at started
    cases lanes : transports.mapM (m := Except CryptoFault) _ with
    | error fault =>
        rw [lanes] at started
        cases started
    | ok entries =>
        obtain ⟨entry, made⟩ := ok_of_mapM lanes member
        cases derived : root.derive (.transportSecret transport.number) with
        | error fault => simp [derived, bind, Except.bind] at made
        | ok secret => exact ⟨secret, rfl⟩
  obtain ⟨secret, derived⟩ := derived
  exact ⟨secret, derived, (find?_lanes_start started ..).mpr ⟨member, secret, derived, rfl⟩⟩

/-! ## Rotation -/

/-- The lanes that a rotation moves into a period: those in front of the first that fails. -/
def rotated (period : Nat) (entries : List (TransportIndex × Lane)) : List TransportIndex :=
  (entries.takeWhile fun entry => (entry.2.secret.derive (.periodSecret period)).isOk).map (·.1)

/-- A lane after a rotation is one that was moved, or stands where it stood. -/
theorem find?_rotateLanes {period : Nat} {entries : List (TransportIndex × Lane)}
    {lanes : Table TransportIndex Lane} {transport : TransportIndex} {lane' : Lane}
    (found : (rotateLanes period entries lanes).2.find? transport = some lane') :
    (transport ∉ rotated period entries ∧ lanes.find? transport = some lane') ∨
      ∃ lane, (transport, lane) ∈ entries ∧ transport ∈ rotated period entries ∧
        lane.secret.derive (.periodSecret period) = .ok lane'.secret ∧ lane'.next = 0 := by
  induction entries generalizing lanes with
  | nil => exact .inl ⟨by simp [rotated], found⟩
  | cons entry entries ih =>
      obtain ⟨first, lane⟩ := entry
      simp only [rotateLanes] at found
      cases derived : lane.secret.derive (.periodSecret period) with
      | error fault =>
          rw [derived] at found
          exact .inl ⟨by simp [rotated, derived, Except.isOk, Except.toBool], found⟩
      | ok secret =>
          rw [derived] at found
          have more :
              rotated period ((first, lane) :: entries) = first :: rotated period entries := by
            simp [rotated, derived, Except.isOk, Except.toBool]
          rw [more]
          rcases ih found with ⟨still, held⟩ | ⟨lane, member, moved, next⟩
          · by_cases here : first = transport
            · subst here
              rw [Table.find?_insert_self] at held
              obtain rfl := Option.some.inj held
              exact .inr ⟨lane, List.mem_cons_self .., List.mem_cons_self .., derived, rfl⟩
            · rw [Table.find?_insert_of_ne _ _ here] at held
              refine .inl ⟨?_, held⟩
              rintro (_ | ⟨_, moved⟩)
              · exact here rfl
              · exact still moved
          · exact .inr ⟨lane, List.mem_cons_of_mem _ member, List.mem_cons_of_mem _ moved, next⟩

/-! ## Giving back -/

theorem restoreAll_lanes (records : List Record) (c : Conversation) :
    (c.restoreAll records).lanes = c.lanes ∧ (c.restoreAll records).role = c.role := by
  simp only [restoreAll]
  induction records with
  | nil => exact ⟨rfl, rfl⟩
  | cons record records ih =>
      rw [List.foldr_cons]
      cases record with
      | transportUpdate => rwa [restore_transportUpdate]
      | subscriptionUpdate => rwa [restore_subscriptionUpdate]
      | ack | batch => exact ih

end Conversation

namespace Mailbox

/-- The local side and the lane of a route. -/
def lane? (m : Mailbox) (route : Route) : Option (Role × Lane) :=
  (m.conversation? route.contact).bind fun c =>
    (c.lanes.find? route.transport).map fun lane => (c.role, lane)

theorem lane?_eq_some_iff (m : Mailbox) (route : Route) (role : Role) (lane : Lane) :
    m.lane? route = some (role, lane) ↔ ∃ c, m.conversation? route.contact = some c ∧
      c.lanes.find? route.transport = some lane ∧ c.role = role := by
  simp only [lane?, Option.bind_eq_some_iff, Option.map_eq_some_iff, Prod.mk.injEq]
  constructor
  · rintro ⟨c, found, lane, here, side, rfl⟩
    exact ⟨c, found, here, side⟩
  · rintro ⟨c, found, here, side⟩
    exact ⟨c, found, lane, here, side, rfl⟩

/-- The period that a rotation of `contact` moves the lane of a route into, if it moves it. -/
def rotatedInto? (m : Mailbox) (contact : ContactId) (route : Route) : Option Nat :=
  (m.conversation? contact).bind fun c =>
    if route.contact = contact ∧
        route.transport ∈ Conversation.rotated (c.period + 1) c.lanes.entries then
      some (c.period + 1)
    else
      none

variable {m : Mailbox} {route : Route} {role : Role} {lane lane' : Lane}

/-! ## What an operation does to a lane -/

private theorem lane?_setConversation {contact : ContactId} {c : Conversation}
    (found : (m.setConversation contact c).lane? route = some (role, lane)) :
    (route.contact ≠ contact ∧ m.lane? route = some (role, lane)) ∨
      route.contact = contact ∧ c.lanes.find? route.transport = some lane ∧ c.role = role := by
  rw [lane?_eq_some_iff] at found
  obtain ⟨c', held, here, side⟩ := found
  by_cases same : contact = route.contact
  · subst same
    rw [conversation?_setConversation_self, Option.some.injEq] at held
    subst held
    exact .inr ⟨rfl, here, side⟩
  · rw [conversation?_setConversation_of_ne m c same] at held
    exact .inl ⟨Ne.symm same, (lane?_eq_some_iff ..).mpr ⟨c', held, here, side⟩⟩

theorem lane?_setConversation_congr {c c' : Conversation} (lanes : c'.lanes = c.lanes)
    (role : c'.role = c.role) :
    (m.setConversation route.contact c').lane? route =
      (m.setConversation route.contact c).lane? route := by
  simp only [lane?, conversation?_setConversation_self, Option.bind_some, lanes, role]

theorem lane?_addContact {contact : ContactId} {root : Secret} {side : Role}
    {transports : List TransportIndex}
    (found : (m.addContact contact root side transports).2.lane? route = some (role, lane)) :
    (m.lane? route = some (role, lane) ∧ (route.contact = contact →
        ∀ c, Conversation.start root side transports ≠ .ok c)) ∨
      route.contact = contact ∧ role = side ∧ ∃ c, Conversation.start root side transports = .ok c ∧
        ∃ secret, root.derive (.transportSecret route.transport.number) = .ok secret ∧
          lane = { secret } := by
  simp only [addContact] at found
  split at found
  next c started =>
    rcases lane?_setConversation found with ⟨other, before⟩ | ⟨same, here, own⟩
    · exact .inl ⟨before, fun same => absurd same other⟩
    · obtain ⟨-, derived⟩ := (Conversation.find?_lanes_start started route.transport lane).mp here
      obtain ⟨lanes, rfl⟩ := Conversation.start_eq_ok started
      exact .inr ⟨same, own.symm, _, started, derived⟩
  next fault failed =>
    refine .inl ⟨found, fun _ c started => ?_⟩
    rw [started] at failed
    cases failed

theorem lane?_rotate {contact : ContactId}
    (found : (m.rotate contact).2.lane? route = some (role, lane')) :
    (m.rotatedInto? contact route = none ∧ m.lane? route = some (role, lane')) ∨
      ∃ period lane, m.rotatedInto? contact route = some period ∧
        m.lane? route = some (role, lane) ∧
        lane.secret.derive (.periodSecret period) = .ok lane'.secret ∧ lane'.next = 0 := by
  rw [snd_rotate] at found
  cases held : m.conversation? contact with
  | none =>
      rw [update_of_unknown held] at found
      exact .inl ⟨by simp [rotatedInto?, held], found⟩
  | some c =>
      rw [update_of_conversation? held] at found
      rcases lane?_setConversation found with ⟨other, before⟩ | ⟨same, here, own⟩
      · exact .inl ⟨by simp [rotatedInto?, held, other], before⟩
      · rw [Conversation.snd_rotate] at here own
        have before : ∀ lane, c.lanes.find? route.transport = some lane →
            m.lane? route = some (role, lane) := by
          intro lane there
          exact (lane?_eq_some_iff ..).mpr ⟨c, same ▸ held, there, own⟩
        rcases Conversation.find?_rotateLanes here with ⟨still, there⟩ | ⟨lane, member, moved, next⟩
        · exact .inl ⟨by simp [rotatedInto?, held, still], before lane' there⟩
        · refine .inr ⟨c.period + 1, lane, by simp [rotatedInto?, held, same, moved],
            before lane ?_, next⟩
          exact (Table.find?_eq_some_iff ..).mpr member

/-- Handing out keys moves one lane on and leaves the others. -/
theorem lane?_useStream {used : Route} {c : Conversation} {next : Lane}
    (held : m.conversation? used.contact = some c)
    (found : (m.setConversation used.contact
      { c with lanes := c.lanes.insert used.transport next }).lane? route = some (role, lane)) :
    route ≠ used ∧ m.lane? route = some (role, lane) ∨
      route = used ∧ role = c.role ∧ lane = next := by
  rcases lane?_setConversation found with ⟨other, before⟩ | ⟨same, there, own⟩
  · refine .inl ⟨?_, before⟩
    rintro rfl
    exact other rfl
  · simp only at there own
    obtain ⟨contact, transport⟩ := route
    obtain rfl : contact = used.contact := same
    by_cases this : used.transport = transport
    · subst this
      rw [Table.find?_insert_self, Option.some.injEq] at there
      exact .inr ⟨rfl, own.symm, there.symm⟩
    · rw [Table.find?_insert_of_ne _ _ this] at there
      refine .inl ⟨?_, (lane?_eq_some_iff ..).mpr ⟨c, held, there, own⟩⟩
      intro whole
      exact this (congrArg Route.transport whole).symm

/-- A lane hands out the keys of its next stream and moves on, as long as there are streams left. -/
theorem context_of_lane? (known : m.lane? route = some (role, lane)) :
    maxContext < lane.next ∧ m.context route = (.error (.streamsExhausted route.contact), m) ∨
      lane.next ≤ maxContext ∧ ∃ m', m.context route =
          (.ok (some { route, secret := lane.secret, stream := lane.next, role }), m') ∧
        m'.lane? route = some (role, { lane with next := lane.next + 1 }) := by
  obtain ⟨c, found, here, rfl⟩ := (lane?_eq_some_iff ..).mp known
  simp only [context, found, here]
  by_cases exhausted : maxContext < lane.next
  · rw [if_pos exhausted]
    exact .inl ⟨exhausted, rfl⟩
  · rw [if_neg exhausted]
    refine .inr ⟨Nat.le_of_not_lt exhausted, _, rfl, (lane?_eq_some_iff ..).mpr ?_⟩
    exact ⟨_, conversation?_setConversation_self .., Table.find?_insert_self .., rfl⟩

/-- Whether an operation leaves the lanes of all contacts alone, or forgets them. -/
def Operation.keepsLanes : Operation → Bool
  | addContact .. | rotate _ | context _ => false
  | _ => true

theorem Operation.Changes.lanes {operation : Operation} {contact : ContactId}
    {c c' : Conversation} (changes : operation.Changes contact c c')
    (keeps : operation.keepsLanes = true) : c'.lanes = c.lanes ∧ c'.role = c.role := by
  cases changes with
  | rotate | useStream => cases keeps
  | queue | requeue => exact ⟨rfl, rfl⟩
  | takeTransportUpdate | takeSubscriptionUpdate | takeAck | takeBatch => simp
  | restore _ records => exact Conversation.restoreAll_lanes records c
  | receive _ record =>
      cases record with
      | ack => exact ⟨rfl, rfl⟩
      | transportUpdate | subscriptionUpdate | batch => simp

theorem lane?_apply {operation : Operation} (keeps : operation.keepsLanes = true)
    (found : (operation.apply m).lane? route = some (role, lane)) :
    m.lane? route = some (role, lane) := by
  obtain ⟨c', after, here, own⟩ := (lane?_eq_some_iff ..).mp found
  have makes := operation.makes m route.contact
  rw [after] at makes
  generalize before : m.conversation? route.contact = earlier at makes
  cases makes with
  | same => exact (lane?_eq_some_iff ..).mpr ⟨c', before, here, own⟩
  | started => cases keeps
  | changed changes =>
      obtain ⟨lanes, side⟩ := changes.lanes keeps
      rw [lanes] at here
      rw [side] at own
      exact (lane?_eq_some_iff ..).mpr ⟨_, before, here, own⟩

end Mailbox

end Courier
