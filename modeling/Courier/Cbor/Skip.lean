import Courier.Cbor.Read

/-! # Passing over an item

The value of a field that nobody asked for is passed over, but it must be well
formed and not nested too deeply. The pass keeps the open lists, maps and tags
on a stack, so that every step reads one head.
-/

namespace Courier.Cbor

/-- An item whose parts are being passed over. -/
inductive Enclosing where
  /-- So many parts are still to come, at least one. -/
  | counted (remaining : Nat)
  | openList
  /-- A map of open count; tells whether a value is to come next. -/
  | openMap (atValue : Bool)
  deriving DecidableEq, Repr

/-- What is still open after one part of the innermost enclosing item has ended. -/
def afterPart : List Enclosing → List Enclosing
  | .counted (remaining + 2) :: outer => .counted (remaining + 1) :: outer
  | .counted _ :: outer => afterPart outer
  | .openMap atValue :: outer => .openMap (!atValue) :: outer
  | stack => stack

/-- Open an item with `parts` parts inside `stack`, within `limit` levels. -/
def enter? (limit : Nat) (item : Enclosing) (stack : List Enclosing) : Option (List Enclosing) :=
  if stack.length < limit then some (item :: stack) else none

/-- Open an item with a known number of parts; one without parts ends at once. -/
def enterCounted? (limit parts : Nat) (stack : List Enclosing) : Option (List Enclosing) :=
  if parts = 0 then
    (enter? limit (.counted 0) stack).map fun _ => afterPart stack
  else
    enter? limit (.counted parts) stack

/-- The numbers below this one can be negated within 128 bits. -/
def negativeBound : Nat := 0x80000000000000000000000000000000

/-- A short byte string after the tag of a number: its value and the rest. -/
def taggedNumber? (bytes : Bytes) : Option (Option (Nat × Bytes)) :=
  match head? bytes with
  | some (.bytes (some length), rest) =>
      if length ≤ 16 then
        some ((take? length rest).map fun (content, rest) => (ofBigEndian content, rest))
      else
        none
  | _ => none

/-- Pass over one head: the rest, and what is open after it. -/
def skipHead? (limit : Nat) (stack : List Enclosing) (head : Head) (bytes : Bytes) :
    Option (List Enclosing × Bytes) :=
  match head with
  | .unsigned _ | .negative _ | .float => some (afterPart stack, bytes)
  | .simple value =>
      if 20 ≤ value ∧ value ≤ 23 then some (afterPart stack, bytes) else none
  | .bytes length =>
      (string? .bytes (fun _ => true) length bytes).map fun (_, rest) => (afterPart stack, rest)
  | .text length =>
      (string? .text isText length bytes).map fun (_, rest) => (afterPart stack, rest)
  | .array (some count) => (enterCounted? limit count stack).map (·, bytes)
  | .array none => (enter? limit .openList stack).map (·, bytes)
  | .map (some count) => (enterCounted? limit (2 * count) stack).map (·, bytes)
  | .map none => (enter? limit (.openMap false) stack).map (·, bytes)
  | .tag number =>
      match if number = 2 ∨ number = 3 then taggedNumber? bytes else none with
      | some none => none
      | some (some (value, rest)) =>
          if number = 3 ∧ negativeBound ≤ value then none else some (afterPart stack, rest)
      | none => (enterCounted? limit 1 stack).map (·, bytes)
  | .stop =>
      match stack with
      | .openList :: outer => some (afterPart outer, bytes)
      | .openMap false :: outer => some (afterPart outer, bytes)
      | _ => none

/-- Pass over heads until nothing is open any more, at most one for each byte of `bound`. -/
def skipAll? (limit : Nat) : (bound : Bytes) → List Enclosing → Bytes → Option Bytes
  | _, [], bytes => some bytes
  | [], _ :: _, _ => none
  | _ :: bound, stack, bytes => do
      let (head, rest) ← head? bytes
      let (stack, rest) ← skipHead? limit stack head rest
      skipAll? limit bound stack rest

/-- Pass over one item, nested within `limit` levels. A head takes a byte or more, so the bytes
    that are read are bound enough. -/
def skip? (limit : Nat) : Reader Unit := fun bytes =>
  (skipAll? (limit + 1) bytes [.counted 1] bytes).map ((), ·)

end Courier.Cbor
