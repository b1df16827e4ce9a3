import Courier.Cbor.Head

/-! # Reading expected items

Readers of the items that a format expects, each returning what it read and
the bytes after it. Tags in front of an expected item are passed over. Strings
may come in segments, which may nest; lists and maps may be of open count.
-/

namespace Courier.Cbor

/-- A reader of values of type `α` from the front of the bytes. -/
abbrev Reader (α : Type) := Bytes → Option (α × Bytes)

/-- The next head that is not a tag. -/
def itemHead? (bytes : Bytes) : Option (Head × Bytes) :=
  match _h : head? bytes with
  | some (.tag _, rest) => itemHead? rest
  | found => found
  termination_by bytes.length
  decreasing_by exact length_of_head? _h

/-- The length that a head gives to a string of one kind. -/
def stringLength? (kind : Kind) : Head → Option (Option Nat)
  | .bytes length => if kind = .bytes then some length else none
  | .text length => if kind = .text then some length else none
  | _ => none

/-- The segments of a string of open length, of which `nested` more are open around it. Each one
    must pass `valid`. -/
def segments? (kind : Kind) (valid : Bytes → Bool) (nested : Nat) (bytes : Bytes) :
    Option (Bytes × Bytes) :=
  match _h : head? bytes with
  | none => none
  | some (.stop, rest) =>
      match nested with
      | 0 => some ([], rest)
      | nested + 1 => segments? kind valid nested rest
  | some (head, rest) =>
      match stringLength? kind head with
      | none => none
      | some none => segments? kind valid (nested + 1) rest
      | some (some length) =>
          match _t : take? length rest with
          | none => none
          | some (segment, rest) =>
              if valid segment then
                (segments? kind valid nested rest).map fun (more, rest) => (segment ++ more, rest)
              else
                none
  termination_by bytes.length
  decreasing_by
    · exact length_of_head? _h
    · exact length_of_head? _h
    · exact Nat.lt_of_le_of_lt (length_of_take? _t) (length_of_head? _h)

/-- What follows the head of a string. -/
def string? (kind : Kind) (valid : Bytes → Bool) (length : Option Nat) (bytes : Bytes) :
    Option (Bytes × Bytes) :=
  match length with
  | none => segments? kind valid 0 bytes
  | some length => do
      let (content, rest) ← take? length bytes
      if valid content then some (content, rest) else none

def isText (bytes : Bytes) : Bool :=
  (ofUtf8? bytes).isSome

/-- `count` items, one after the other. -/
def many? {α : Type} (item : Reader α) : (count : Nat) → Reader (List α)
  | 0, bytes => some ([], bytes)
  | count + 1, bytes => do
      let (first, rest) ← item bytes
      let (others, rest) ← many? item count rest
      return (first :: others, rest)

/-- Items up to a stop, fewer of them than `bound` has bytes. An item takes a byte or more, so the
    bytes that are read are bound enough. -/
def manyUntilStop? {α : Type} (item : Reader α) : (bound : Bytes) → Reader (List α)
  | [], _ => none
  | _ :: bound, bytes =>
      match head? bytes with
      | some (.stop, rest) => some ([], rest)
      | _ => do
          let (first, rest) ← item bytes
          let (others, rest) ← manyUntilStop? item bound rest
          return (first :: others, rest)

/-- The items of a list, or the entries of a map, whose head gave this count. -/
def collection? {α : Type} (item : Reader α) : (count : Option Nat) → Reader (List α)
  | some count, bytes => many? item count bytes
  | none, bytes => manyUntilStop? item bytes bytes

def pair? {α β : Type} (first : Reader α) (second : Reader β) : Reader (α × β) := fun bytes => do
  let (a, rest) ← first bytes
  let (b, rest) ← second rest
  return ((a, b), rest)

/-- A map, as the list of its entries. -/
def map? {α β : Type} (key : Reader α) (value : Reader β) : Reader (List (α × β)) := fun bytes =>
  match itemHead? bytes with
  | some (.map count, rest) => collection? (pair? key value) count rest
  | _ => none

/-- A list. An empty byte string is read as a list without items. -/
def list? {α : Type} (item : Reader α) : Reader (List α) := fun bytes =>
  match itemHead? bytes with
  | some (.array count, rest) => collection? item count rest
  | some (.bytes length, rest) =>
      match string? .bytes (fun _ => true) length rest with
      | some ([], rest) => some ([], rest)
      | _ => none
  | _ => none

def text? : Reader String := fun bytes =>
  match itemHead? bytes with
  | some (.text length, rest) => do
      let (content, rest) ← string? .text isText length rest
      let text ← ofUtf8? content
      return (text, rest)
  | _ => none

/-- The value of a number written as a byte string: at most sixteen bytes after leading zeros. -/
def bignum? (content : Bytes) : Option Nat :=
  let digits := content.dropWhile (· = 0)
  if digits.length ≤ 16 then some (ofBigEndian digits) else none

/-- A number that is not negative and at most `limit`: a plain one, or a byte string tagged as
    number. -/
def unsigned? (limit : Nat) : Reader Nat := fun bytes =>
  match _h : head? bytes with
  | some (.unsigned n, rest) => if n ≤ limit then some (n, rest) else none
  | some (.tag 2, rest) =>
      match head? rest with
      | some (.bytes length, rest) => do
          let (content, rest) ← string? .bytes (fun _ => true) length rest
          let n ← bignum? content
          if n ≤ limit then some (n, rest) else none
      | _ => none
  | some (.tag 3, _) => none
  | some (.tag _, rest) => unsigned? limit rest
  | _ => none
  termination_by bytes => bytes.length
  decreasing_by exact length_of_head? _h

/-- A byte string, or a list of numbers below 256. -/
def bytes? : Reader Bytes := fun bytes =>
  match itemHead? bytes with
  | some (.bytes length, rest) => string? .bytes (fun _ => true) length rest
  | some (.array count, rest) =>
      (collection? (unsigned? 255) count rest).map fun (ns, rest) => (ns.map UInt8.ofNat, rest)
  | _ => none

/-- Longest name of a field or variant. -/
def maxNameLength : Nat := 4096

/-- The content of a name with this head: a text or byte string of definite length. -/
def nameContent? (head : Head) (bytes : Bytes) : Option (Bytes × Bytes) :=
  match head with
  | .text (some length) =>
      if length ≤ maxNameLength then string? .text isText (some length) bytes else none
  | .bytes (some length) =>
      if length ≤ maxNameLength then string? .bytes (fun _ => true) (some length) bytes else none
  | _ => none

def name? : Reader Bytes := fun bytes => do
  let (head, rest) ← itemHead? bytes
  nameContent? head rest

end Courier.Cbor
