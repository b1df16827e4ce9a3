/-! # Arithmetic modulo a prime

The two residue rings of the curve, of coordinates and of scalars, and powers
in them. Powers give inverses, since both moduli are prime, and square roots of
coordinates, since that modulus is one less than a multiple of four.
-/

namespace Courier.Curve

/-- The modulus of the coordinates, `2^384 - 2^128 - 2^96 + 2^32 - 1`. -/
def fieldPrime : Nat :=
  0xfffffffffffffffffffffffffffffffffffffffffffffffffffffffffffffffeffffffff0000000000000000ffffffff

/-- The number of points of the curve. -/
def order : Nat :=
  0xffffffffffffffffffffffffffffffffffffffffffffffffc7634d81f4372ddf581a0db248b0a77aecec196accc52973

instance : @NeZero Nat Zero.ofOfNat0 fieldPrime := ⟨by decide⟩

instance : @NeZero Nat Zero.ofOfNat0 order := ⟨by decide⟩

abbrev Coordinate := Fin fieldPrime

abbrev Scalar := Fin order

/-- Binary digits, most significant first. -/
def binaryDigits (n : Nat) : List Bool :=
  (List.range (n.log2 + 1)).reverse.map n.testBit

/-- `x` to the power `n`, by squaring. -/
def power {modulus : Nat} (x : Fin modulus) (n : Nat) : Fin modulus :=
  (binaryDigits n).foldl (fun y bit => if bit then y * y * x else y * y)
    ⟨1 % modulus, Nat.mod_lt 1 x.pos⟩

/-- The inverse of a residue modulo a prime; zero has inverse zero. -/
def inverse {modulus : Nat} (x : Fin modulus) : Fin modulus :=
  power x (modulus - 2)

/-- The square root of `x` that is a square itself, if there is one. -/
def squareRoot? (x : Coordinate) : Option Coordinate :=
  let y := power x ((fieldPrime + 1) / 4)
  if y * y = x then some y else none

end Courier.Curve
