/-! # Byte strings

Byte strings are lists of bytes. This module fixes the big-endian spelling of
numbers, the bytewise exclusive or, the cut into fixed-size pieces, and the
hexadecimal text of bytes.
-/

namespace Courier

/-- A byte string, first byte first. -/
abbrev Bytes := List UInt8

/-- The `width` low bytes of `n`, most significant first. -/
def bigEndian : (width : Nat) → (n : Nat) → Bytes
  | 0, _ => []
  | width + 1, n => bigEndian width (n / 256) ++ [UInt8.ofNat n]

/-- The number that `bytes` spell, most significant byte first. -/
def ofBigEndian (bytes : Bytes) : Nat :=
  bytes.foldl (fun n b => n * 256 + b.toNat) 0

@[simp] theorem length_bigEndian (width n : Nat) : (bigEndian width n).length = width := by
  induction width generalizing n with
  | zero => rfl
  | succ width ih => simp [bigEndian, ih]

/-- Bytewise exclusive or, as long as the shorter argument. -/
def xorBytes (xs ys : Bytes) : Bytes :=
  List.zipWith (· ^^^ ·) xs ys

@[simp] theorem length_xorBytes (xs ys : Bytes) :
    (xorBytes xs ys).length = min xs.length ys.length := by
  simp [xorBytes]

/-- Pieces of `size` bytes, at most `count` of them; the last may be shorter. -/
def pieces (size : Nat) : (count : Nat) → Bytes → List Bytes
  | 0, _ => []
  | _ + 1, [] => []
  | count + 1, b :: bytes =>
      (b :: bytes).take size :: pieces size count ((b :: bytes).drop size)

/-- All of `bytes` cut into pieces of `size` bytes; the last may be shorter. -/
def chunks (size : Nat) (bytes : Bytes) : List Bytes :=
  pieces size bytes.length bytes

def hexDigit (n : Nat) : Char :=
  if n < 10 then Char.ofNat (48 + n) else Char.ofNat (87 + n)

/-- Two lower-case hexadecimal digits per byte. -/
def hexText (bytes : Bytes) : String :=
  String.ofList (bytes.flatMap fun b => [hexDigit (b.toNat / 16), hexDigit (b.toNat % 16)])

def utf8 (text : String) : Bytes :=
  text.toUTF8.data.toList

/-- The text that `bytes` spell in UTF-8; `none` if they are not well formed. -/
def ofUtf8? (bytes : Bytes) : Option String :=
  String.fromUTF8? (ByteArray.mk bytes.toArray)

/-- The first `count` bytes of `pattern` repeated for ever; nothing from the empty pattern. -/
def cycled (pattern : Bytes) (count : Nat) : Bytes :=
  match pattern with
  | [] => []
  | _ => (List.replicate (count / pattern.length + 1) pattern).flatten.take count

end Courier
