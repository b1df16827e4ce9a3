import Courier.Bytes

/-! # Heads of data items

A data item in CBOR starts with a head: a kind and an argument, which is a
number, a length, or a count. Written heads are as short as possible; read ones
need not be, and a length or count may be left open.
-/

namespace Courier.Cbor

/-- The head of a data item. An open length or count is `none`. -/
inductive Head where
  | unsigned (value : Nat)
  /-- The number `-1 - value`. -/
  | negative (value : Nat)
  | bytes (length : Option Nat)
  | text (length : Option Nat)
  | array (count : Option Nat)
  | map (count : Option Nat)
  | tag (number : Nat)
  | simple (value : Nat)
  | float
  /-- Ends an item of open length. -/
  | stop
  deriving DecidableEq, Repr

inductive Kind where
  | unsigned
  | bytes
  | text
  | array
  | map
  deriving DecidableEq, Repr

/-- The high three bits of a head. -/
def Kind.bits : Kind → Nat
  | unsigned => 0
  | bytes => 2
  | text => 3
  | array => 4
  | map => 5

def Kind.head : Kind → Nat → Head
  | unsigned, n => .unsigned n
  | bytes, n => .bytes (some n)
  | text, n => .text (some n)
  | array, n => .array (some n)
  | map, n => .map (some n)

/-- The shortest head with argument `n`, which is below 2^64. -/
def Kind.write (kind : Kind) (n : Nat) : Bytes :=
  let first := fun info => UInt8.ofNat (32 * kind.bits + info)
  if n < 24 then [first n]
  else if n < UInt8.size then first 24 :: bigEndian 1 n
  else if n < UInt16.size then first 25 :: bigEndian 2 n
  else if n < UInt32.size then first 26 :: bigEndian 4 n
  else first 27 :: bigEndian 8 n

/-- Length of the shortest head with argument `n`. -/
def headLength (n : Nat) : Nat :=
  if n < 24 then 1
  else if n < UInt8.size then 2
  else if n < UInt16.size then 3
  else if n < UInt32.size then 5
  else 9

theorem length_write (kind : Kind) (n : Nat) : (kind.write n).length = headLength n := by
  unfold Kind.write headLength
  repeat' split
  all_goals simp

/-- Split off the first `count` bytes, if there are that many. -/
def take? (count : Nat) (bytes : Bytes) : Option (Bytes × Bytes) :=
  if (bytes.take count).length = count then some (bytes.take count, bytes.drop count) else none

def number? (width : Nat) (bytes : Bytes) : Option (Nat × Bytes) :=
  (take? width bytes).map fun (front, rest) => (ofBigEndian front, rest)

/-- The argument announced by the low five bits of a head; `none` for an open one. -/
def argument? (info : Nat) (bytes : Bytes) : Option (Option Nat × Bytes) :=
  if info < 24 then some (some info, bytes)
  else if info = 24 then (number? 1 bytes).map fun (n, rest) => (some n, rest)
  else if info = 25 then (number? 2 bytes).map fun (n, rest) => (some n, rest)
  else if info = 26 then (number? 4 bytes).map fun (n, rest) => (some n, rest)
  else if info = 27 then (number? 8 bytes).map fun (n, rest) => (some n, rest)
  else if info = 31 then some (none, bytes)
  else none

/-- The head that high bits, low bits and argument make. A number or tag cannot be open. -/
def headOf? (bits info : Nat) : (argument : Option Nat) → Option Head
  | some n =>
      match bits with
      | 0 => some (.unsigned n)
      | 1 => some (.negative n)
      | 2 => some (.bytes (some n))
      | 3 => some (.text (some n))
      | 4 => some (.array (some n))
      | 5 => some (.map (some n))
      | 6 => some (.tag n)
      | _ => if info ≤ 24 then some (.simple n) else some .float
  | none =>
      match bits with
      | 2 => some (.bytes none)
      | 3 => some (.text none)
      | 4 => some (.array none)
      | 5 => some (.map none)
      | 7 => some .stop
      | _ => none

def head? (bytes : Bytes) : Option (Head × Bytes) :=
  match bytes with
  | [] => none
  | first :: rest =>
      match argument? (first.toNat % 32) rest with
      | none => none
      | some (argument, rest) =>
          (headOf? (first.toNat / 32) (first.toNat % 32) argument).map fun head => (head, rest)

theorem length_of_take? {count : Nat} {bytes front rest : Bytes}
    (h : take? count bytes = some (front, rest)) : rest.length ≤ bytes.length := by
  unfold take? at h
  split at h
  · simp only [Option.some.injEq, Prod.mk.injEq] at h
    simp [← h.2]
  · cases h

theorem length_of_argument? {info : Nat} {bytes rest : Bytes} {argument : Option Nat}
    (h : argument? info bytes = some (argument, rest)) : rest.length ≤ bytes.length := by
  have number {width n} (h : (number? width bytes).map (fun (n, rest) => (some n, rest)) =
      some (n, rest)) : rest.length ≤ bytes.length := by
    simp only [number?, Option.map_map, Option.map_eq_some_iff, Prod.exists] at h
    obtain ⟨front, rest', taken, same⟩ := h
    simp only [Function.comp, Prod.mk.injEq] at same
    exact same.2 ▸ length_of_take? taken
  unfold argument? at h
  repeat' split at h
  all_goals first
    | exact number h
    | (simp only [Option.some.injEq, Prod.mk.injEq] at h; simp [← h.2])
    | cases h

/-- A head takes at least one byte. -/
theorem length_of_head? {bytes rest : Bytes} {head : Head} (h : head? bytes = some (head, rest)) :
    rest.length < bytes.length := by
  unfold head? at h
  split at h
  · cases h
  · split at h
    · cases h
    next found =>
      simp only [Option.map_eq_some_iff, Prod.mk.injEq] at h
      obtain ⟨_, _, _, rfl⟩ := h
      have := length_of_argument? found
      simp only [List.length_cons]
      omega

end Courier.Cbor
