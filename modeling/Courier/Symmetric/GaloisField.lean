import Courier.Symmetric.Block

/-! # The field of the message authentication code

Blocks read as polynomials over the field of two elements, multiplied modulo
`x^128 + x^7 + x^2 + x + 1`. The first bit of the first byte is the constant
coefficient. An element is kept as two words, so that multiplication by `x` is
two shifts and a few exclusive ors, all additive.
-/

namespace Courier

/-- A polynomial of degree below 128: coefficient `i` is bit `63 - i` of `high` for `i < 64`, and
    bit `127 - i` of `low` otherwise. -/
structure FieldElement where
  high : UInt64
  low : UInt64
  deriving DecidableEq, Repr

namespace FieldElement

def zero : FieldElement := ⟨0, 0⟩

/-- Addition, which is exclusive or. -/
def add (x y : FieldElement) : FieldElement :=
  ⟨x.high ^^^ y.high, x.low ^^^ y.low⟩

/-- Multiplication by `x`. The coefficient pushed out of the last place returns as
    `1 + x + x^2 + x^7`. -/
def timesX (v : FieldElement) : FieldElement :=
  let out := v.low &&& 1
  ⟨(v.high >>> 1) ^^^ (out <<< 63) ^^^ (out <<< 62) ^^^ (out <<< 61) ^^^ (out <<< 56),
    (v.low >>> 1) ^^^ (v.high <<< 63)⟩

/-- The low `count` bits of `word`, most significant first. -/
def bitsOf : (count : Nat) → (word : UInt64) → List Bool
  | 0, _ => []
  | count + 1, word => ((word >>> UInt64.ofNat count) &&& 1 == 1) :: bitsOf count word

/-- The coefficients, constant first. -/
def coefficients (v : FieldElement) : List Bool :=
  bitsOf 64 v.high ++ bitsOf 64 v.low

/-- The product of the polynomial with coefficients `bits`, constant first, and `v`, added to
    `total`. -/
def mulAdd : (bits : List Bool) → (v total : FieldElement) → FieldElement
  | [], _, total => total
  | bit :: bits, v, total => mulAdd bits v.timesX (if bit then total.add v else total)

def mul (x y : FieldElement) : FieldElement :=
  mulAdd x.coefficients y zero

/-- Eight bytes as a word, most significant first. -/
def word (x y : Column) : UInt64 :=
  (x.a.toUInt64 <<< 56) ^^^ (x.b.toUInt64 <<< 48) ^^^ (x.c.toUInt64 <<< 40) ^^^
    (x.d.toUInt64 <<< 32) ^^^ (y.a.toUInt64 <<< 24) ^^^ (y.b.toUInt64 <<< 16) ^^^
    (y.c.toUInt64 <<< 8) ^^^ y.d.toUInt64

def ofBlock (x : Block) : FieldElement :=
  ⟨word x.c0 x.c1, word x.c2 x.c3⟩

def highColumn (w : UInt64) : Column :=
  ⟨(w >>> 56).toUInt8, (w >>> 48).toUInt8, (w >>> 40).toUInt8, (w >>> 32).toUInt8⟩

def lowColumn (w : UInt64) : Column :=
  ⟨(w >>> 24).toUInt8, (w >>> 16).toUInt8, (w >>> 8).toUInt8, w.toUInt8⟩

def toBlock (v : FieldElement) : Block :=
  ⟨highColumn v.high, lowColumn v.high, highColumn v.low, lowColumn v.low⟩

end FieldElement

end Courier
