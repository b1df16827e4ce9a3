import Courier.Bytes
import Courier.Curve.Residue

/-! # Points of the curve

The curve P-384, `y^2 = x^3 - 3x + b`. Sums are computed with a common
denominator `z`, where `(x, y, z)` stands for `(x / z^2, y / z^3)` and `z = 0`
for the neutral point, so that only the last step divides.

A point travels as a type byte and its coordinates: type 4 gives both, types 2
and 3 give `x` and the parity of `y`, and type 5 gives `x` alone and means the
smaller of the two `y`.
-/

namespace Courier.Curve

def constantTerm : Coordinate :=
  0xb3312fa7e23ee7e4988e056be3f82d19181d9c6efe8141120314088f5013875ac656398d8a2ed19d2a85c8edd3ec2aef

/-- The right side of the equation of the curve. -/
def rightSide (x : Coordinate) : Coordinate :=
  x * x * x - 3 * x + constantTerm

/-- A point that is not the neutral one. -/
structure Point where
  x : Coordinate
  y : Coordinate
  on_curve : y * y = rightSide x
  deriving DecidableEq

/-- A point over a common denominator. -/
structure Fraction where
  x : Coordinate
  y : Coordinate
  z : Coordinate

namespace Fraction

def neutral : Fraction :=
  ⟨1, 1, 0⟩

def ofPoint (p : Point) : Fraction :=
  ⟨p.x, p.y, 1⟩

def double (p : Fraction) : Fraction :=
  let delta := p.z * p.z
  let gamma := p.y * p.y
  let beta := p.x * gamma
  let alpha := 3 * ((p.x - delta) * (p.x + delta))
  let x := alpha * alpha - 8 * beta
  ⟨x, alpha * (4 * beta - x) - 8 * (gamma * gamma), 2 * (p.y * p.z)⟩

def add (p q : Fraction) : Fraction :=
  if p.z = 0 then q
  else if q.z = 0 then p
  else
    let pz := p.z * p.z
    let qz := q.z * q.z
    let u := p.x * qz
    let s := p.y * (qz * q.z)
    let h := q.x * pz - u
    let r := q.y * (pz * p.z) - s
    if h = 0 then
      if r = 0 then p.double else neutral
    else
      let hh := h * h
      let hhh := h * hh
      let v := u * hh
      let x := r * r - hhh - 2 * v
      ⟨x, r * (v - x) - s * hhh, h * (p.z * q.z)⟩

/-- The sum of `n` copies of `p`, by doubling. -/
def multiply (p : Fraction) (n : Nat) : Fraction :=
  (binaryDigits n).foldl (fun q bit => if bit then q.double.add p else q.double) neutral

def coordinates? (p : Fraction) : Option (Coordinate × Coordinate) :=
  if p.z = 0 then
    none
  else
    let z := inverse p.z
    some (p.x * (z * z), p.y * (z * z * z))

end Fraction

def generator : Point where
  x := 0xaa87ca22be8b05378eb1c71ef320ad746e1d3b628ba79b9859f741e082542a385502f25dbf55296c3a545e3872760ab7
  y := 0x3617de4a96262c6f5d9e98bf9292dc29f8f41dbd289a147ce9da3113b5f0b8c00a60b1ce1d7e819d7a431d7c90ea0e5f
  on_curve := by decide

def coordinateLength : Nat := 48

def coordinateBytes (x : Coordinate) : Bytes :=
  bigEndian coordinateLength x.val

def publicKeyLength : Nat := 97

def encodeCoordinates (x y : Coordinate) : Bytes :=
  4 :: coordinateBytes x ++ coordinateBytes y

namespace Point

def encode (p : Point) : Bytes :=
  encodeCoordinates p.x p.y

/-- The point with these coordinates, if it is on the curve. -/
def ofCoordinates? (x y : Coordinate) : Option Point :=
  if h : y * y = rightSide x then some ⟨x, y, h⟩ else none

/-- A coordinate of exactly 48 bytes, below the modulus. -/
def coordinate? (bytes : Bytes) : Option Coordinate :=
  if h : ofBigEndian bytes < fieldPrime then
    if bytes.length = coordinateLength then some ⟨ofBigEndian bytes, h⟩ else none
  else
    none

/-- The point with this `x` whose `y` is one of two opposite roots, as chosen. -/
def ofX? (bytes : Bytes) (choose : Coordinate → Coordinate → Coordinate) : Option Point := do
  let x ← coordinate? bytes
  let y ← squareRoot? (rightSide x)
  ofCoordinates? x (choose y (-y))

/-- The point that `bytes` encode in one of the four ways. -/
def decode? (bytes : Bytes) : Option Point :=
  match bytes with
  | 2 :: rest => ofX? rest fun y z => if y.val % 2 = 0 then y else z
  | 3 :: rest => ofX? rest fun y z => if y.val % 2 = 1 then y else z
  | 4 :: rest => do
      let x ← coordinate? (rest.take coordinateLength)
      let y ← coordinate? (rest.drop coordinateLength)
      ofCoordinates? x y
  | 5 :: rest => ofX? rest fun y z => if y.val ≤ z.val then y else z
  | _ => none

end Point

end Courier.Curve
