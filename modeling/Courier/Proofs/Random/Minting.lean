import Courier.Proofs.Depot.Shelf
import Courier.Random.Mint

/-! # Minting on a shelf

What is drawn on a shelf is as long as asked, and using it up is all that
drawing does to the shelf.
-/

namespace Courier

namespace KeyStream

theorem length_words (count : Nat) (s : KeyStream) : (s.words count).1.length = count := by
  induction count generalizing s with
  | zero => rfl
  | succ count ih =>
      simp only [words]
      split <;> simp [ih]

theorem length_take (count : Nat) (s : KeyStream) : (s.take count).1.length = count := by
  have word : ∀ word, (bytesOf word).length = 4 := fun word => by simp [bytesOf]
  have all : ((s.words ((count + 3) / 4)).1.flatMap bytesOf).length = 4 * ((count + 3) / 4) := by
    simp [List.length_flatMap, word, List.map_const', length_words, Nat.mul_comm]
  simp only [take, List.length_take, all]
  omega

end KeyStream

open Curve (coordinateLength)

namespace Mint

variable {α β : Type}

/-- Drawing from a stream and a shelf comes to this. -/
def Gives (mint : Mint Shelving α) (stream : KeyStream) (s : Shelf) (value : α)
    (stream' : KeyStream) (after : Shelf) : Prop :=
  (StateT.run mint stream).run s = ((value, stream'), after)

namespace Gives

variable {mint : Mint Shelving α} {next : α → Mint Shelving β} {stream between stream' : KeyStream}
  {s middle after : Shelf} {value : α} {answer : β}

theorem bind (first : Gives mint stream s value between middle)
    (rest : Gives (next value) between middle answer stream' after) :
    Gives (mint >>= next) stream s answer stream' after := by
  rw [Gives] at first rest ⊢
  rw [StateT.run_bind, Shelf.run_bind, first]
  exact rest

theorem pure (value : α) (stream : KeyStream) (s : Shelf) :
    Gives (Pure.pure value) stream s value stream s := rfl

theorem draw (count : Nat) (stream : KeyStream) (s : Shelf) :
    Gives (Mint.draw count) stream s
      (xorBytes ((List.range count).map (s.draws 0)) (stream.take count).1) (stream.take count).2
      (s.skip 1) := rfl

/-- The stream starts with a seed that the platform gives. -/
theorem run
    (gives : Gives mint (.ofSeed ((List.range secretLength).map (s.draws 0))) (s.skip 1) value
      stream' after) :
    (Mint.run mint : Shelving α).run s = (value, after) :=
  Prod.ext (congrArg (·.1.1) gives) (congrArg (·.2) gives)

end Gives

/-- Bytes that spell a scalar are drawn once. -/
theorem gives_drawScalar {stream : KeyStream} {s : Shelf} {scalar : Curve.Scalar}
    (usable : KeyPair.scalar? (xorBytes ((List.range coordinateLength).map (s.draws 0))
      (stream.take coordinateLength).1) = some scalar) (tries : Nat) :
    Gives (KeyPair.drawScalar draw (tries + 1)) stream s (some scalar)
      (stream.take coordinateLength).2 (s.skip 1) := by
  refine Gives.bind (.draw ..) ?_
  rw [usable]
  exact .pure ..

theorem gives_keyPair {stream : KeyStream} {s : Shelf} {scalar : Curve.Scalar}
    (usable : KeyPair.scalar? (xorBytes ((List.range coordinateLength).map (s.draws 0))
      (stream.take coordinateLength).1) = some scalar) :
    Gives keyPair stream s (some (.ofScalar scalar)) (stream.take coordinateLength).2
      (s.skip 1) := by
  have drew := gives_drawScalar usable (KeyPair.maxDraws - 1)
  rw [Nat.sub_add_cancel (by decide)] at drew
  exact drew.bind (.pure ..)

/-- Whatever scalar is drawn in the end, only random bytes are used up. -/
theorem exists_gives_drawScalar (tries : Nat) (stream : KeyStream) (s : Shelf) :
    ∃ scalar stream' count,
      Gives (KeyPair.drawScalar draw tries) stream s scalar stream' (s.skip count) := by
  induction tries generalizing stream s with
  | zero => exact ⟨none, stream, 0, by rw [s.skip_zero]; exact .pure none stream s⟩
  | succ tries ih =>
      cases usable : KeyPair.scalar? (xorBytes ((List.range coordinateLength).map (s.draws 0))
        (stream.take coordinateLength).1) with
      | some scalar => exact ⟨_, _, 1, gives_drawScalar usable tries⟩
      | none =>
          obtain ⟨scalar, stream', count, rest⟩ := ih (stream.take coordinateLength).2 (s.skip 1)
          refine ⟨scalar, stream', 1 + count, Gives.bind (.draw ..) ?_⟩
          rw [usable, ← Shelf.skip_skip]
          exact rest

theorem exists_gives_keyPair (stream : KeyStream) (s : Shelf) :
    ∃ pair stream' count, Gives keyPair stream s pair stream' (s.skip count) := by
  obtain ⟨scalar, stream', count, gives⟩ :=
    exists_gives_drawScalar KeyPair.maxDraws stream s
  exact ⟨_, stream', count, gives.bind (.pure ..)⟩

end Mint

end Courier
