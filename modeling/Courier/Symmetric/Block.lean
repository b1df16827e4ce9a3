import Courier.Bytes

/-! # Sixteen-byte blocks

A block is four columns of four bytes. The block cipher works on columns, a
connection tag is one block, and the counter of the stream mode is the last
column read as a number.
-/

namespace Courier

/-- Four bytes of a block, top to bottom. -/
structure Column where
  a : UInt8
  b : UInt8
  c : UInt8
  d : UInt8
  deriving DecidableEq, Repr

/-- Sixteen bytes, column after column. -/
structure Block where
  c0 : Column
  c1 : Column
  c2 : Column
  c3 : Column
  deriving DecidableEq, Repr

namespace Column

def map (f : UInt8 → UInt8) (x : Column) : Column :=
  ⟨f x.a, f x.b, f x.c, f x.d⟩

def xor (x y : Column) : Column :=
  ⟨x.a ^^^ y.a, x.b ^^^ y.b, x.c ^^^ y.c, x.d ^^^ y.d⟩

def toBytes (x : Column) : Bytes :=
  [x.a, x.b, x.c, x.d]

/-- The four bytes as a big-endian number. -/
def toNat (x : Column) : Nat :=
  ofBigEndian x.toBytes

/-- The low 32 bits of `n`, most significant byte first. -/
def ofNat (n : Nat) : Column :=
  ⟨.ofNat (n / 16777216), .ofNat (n / 65536), .ofNat (n / 256), .ofNat n⟩

end Column

namespace Block

def map (f : UInt8 → UInt8) (x : Block) : Block :=
  ⟨x.c0.map f, x.c1.map f, x.c2.map f, x.c3.map f⟩

def xor (x y : Block) : Block :=
  ⟨x.c0.xor y.c0, x.c1.xor y.c1, x.c2.xor y.c2, x.c3.xor y.c3⟩

def toBytes (x : Block) : Bytes :=
  x.c0.toBytes ++ x.c1.toBytes ++ x.c2.toBytes ++ x.c3.toBytes

/-- The first sixteen of `bytes`, filled up with zeros. -/
def ofBytes (bytes : Bytes) : Block :=
  let byte := fun i => bytes.getD i 0
  ⟨⟨byte 0, byte 1, byte 2, byte 3⟩, ⟨byte 4, byte 5, byte 6, byte 7⟩,
    ⟨byte 8, byte 9, byte 10, byte 11⟩, ⟨byte 12, byte 13, byte 14, byte 15⟩⟩

/-- The block with these bytes, if there are exactly sixteen. -/
def ofBytes? (bytes : Bytes) : Option Block :=
  if bytes.length = 16 then some (ofBytes bytes) else none

def zero : Block :=
  ofBytes []

@[simp] theorem length_toBytes (x : Block) : x.toBytes.length = 16 := rfl

@[simp] theorem ofBytes_toBytes (x : Block) : ofBytes x.toBytes = x := rfl

theorem toBytes_ofBytes {bytes : Bytes} (h : bytes.length = 16) :
    (ofBytes bytes).toBytes = bytes := by
  match bytes, h with
  | [_, _, _, _, _, _, _, _, _, _, _, _, _, _, _, _], _ => rfl

/-- The block whose last column, read as a number, is one more; 2^32 - 1 is followed by 0. -/
def succ (x : Block) : Block :=
  { x with c3 := .ofNat (x.c3.toNat + 1) }

end Block

end Courier
