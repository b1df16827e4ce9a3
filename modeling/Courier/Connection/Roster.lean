import Courier.Connection.Context
import Courier.Connection.Fault
import Courier.Secret.Derivation
import Courier.Table
import Courier.Tag

/-! # Recognising the sender of a tag

A tag names nobody, so it is tried under the tag key of every contact that
connections are expected from. Each of them has a window of expected stream
numbers, from the lowest one not yet accepted. A number is accepted once; that
makes a repeated connection unrecognisable.
-/

namespace Courier

/-- The expected stream numbers of one route: `seen` tells for each number from `base` on whether
    it was accepted. -/
structure Window where
  base : Nat
  seen : List Bool
  deriving DecidableEq, Repr

namespace Window

/-- Stream numbers that are accepted ahead of the lowest one not accepted, unless told otherwise. -/
def defaultSize : Nat := 32

/-- A window of `size` numbers from `base` on, none of them accepted. -/
def fresh (size base : Nat) : Window :=
  ⟨base, List.replicate size false⟩

/-- Move the window past the accepted numbers at its start. -/
def slide (w : Window) : Window :=
  let run := (w.seen.takeWhile id).length
  ⟨w.base + run, w.seen.drop run ++ List.replicate run false⟩

/-- The window after `stream` is accepted, if it lies in the window and was not accepted before. -/
def accept? (w : Window) (stream : Nat) : Option Window :=
  if stream < w.base then
    none
  else
    match w.seen[stream - w.base]? with
    | some false => some ({ w with seen := w.seen.set (stream - w.base) true }).slide
    | _ => none

end Window

/-- What tells the connections of one route. -/
structure Roster.Entry where
  secret : Secret
  /-- The tag key of the other side. -/
  peerTagKey : Secret
  role : Role
  window : Window
  deriving DecidableEq

/-- The stream number that a tag carries, if the entry accepts it, and the entry after that. -/
def Roster.Entry.accept? (entry : Roster.Entry) (tag : Tag) : Option (Nat × Roster.Entry) := do
  let stream ← tag.decode entry.peerTagKey
  let window ← entry.window.accept? stream
  return (stream, { entry with window })

structure Roster where
  windowSize : Nat
  entries : Table Route Roster.Entry

namespace Roster

/-- A roster without routes; windows hold at least one number. -/
def ofWindow (size : Nat) : Roster :=
  ⟨max size 1, .empty⟩

/-- Expect connections on a route, in place of what was expected there: from the stream number
    `first` on, from the other side of `role`. -/
def expect (roster : Roster) (route : Route) (secret : Secret) (role : Role) (first : Nat) :
    Except ConnectionFault Roster :=
  match secret.derive (.tagKey role.peer) with
  | .ok peerTagKey =>
      let entry : Entry :=
        { secret, peerTagKey, role, window := .fresh roster.windowSize first }
      .ok { roster with entries := roster.entries.insert route entry }
  | .error fault => .error (.crypto fault)

def forget (roster : Roster) (route : Route) : Roster :=
  { roster with entries := roster.entries.erase route }

/-- The lowest stream number still expected on a route. -/
def windowBase? (roster : Roster) (route : Route) : Option Nat :=
  (roster.entries.find? route).map (·.window.base)

/-- The first entry that accepts a tag: its route, the stream number, and the entry after that. -/
def match? (tag : Tag) (entries : List (Route × Entry)) : Option (Route × Nat × Entry) :=
  entries.findSome? fun (route, entry) =>
    (entry.accept? tag).map fun (stream, entry) => (route, stream, entry)

/-- The context of the connection that a tag opens, and the roster that will not accept it
    again. -/
def recognise (roster : Roster) (tag : Tag) : Option Context × Roster :=
  match match? tag roster.entries.entries with
  | some (route, stream, entry) =>
      (some { route, secret := entry.secret, stream, role := entry.role },
        { roster with entries := roster.entries.insert route entry })
  | none => (none, roster)

end Roster

end Courier
