import Courier.Bytes

/-! # Gathered bytes

Bytes that come piece by piece. They are kept last byte first and counted, so
that a piece costs no more than its own length. What was gathered is seen
through `toBytes`: adding a piece appends it.
-/

namespace Courier

structure Gathered where
  /-- The bytes, last one first. -/
  reversed : Bytes
  size : Nat
  size_eq : size = reversed.length
  deriving DecidableEq, Repr

namespace Gathered

def empty : Gathered :=
  ⟨[], 0, rfl⟩

/-- The bytes in the order in which they came. -/
def toBytes (g : Gathered) : Bytes :=
  g.reversed.reverse

def add (g : Gathered) (piece : Bytes) : Gathered where
  reversed := piece.reverse ++ g.reversed
  size := piece.length + g.size
  size_eq := by simp [g.size_eq]

@[simp] theorem toBytes_empty : empty.toBytes = [] := rfl

@[simp] theorem toBytes_add (g : Gathered) (piece : Bytes) :
    (g.add piece).toBytes = g.toBytes ++ piece := by
  simp [toBytes, add]

@[simp] theorem length_toBytes (g : Gathered) : g.toBytes.length = g.size := by
  simp [toBytes, g.size_eq]

end Gathered

end Courier
