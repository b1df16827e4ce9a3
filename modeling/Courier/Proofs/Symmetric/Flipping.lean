import Courier.Proofs.Symmetric.BlockCipher
import Courier.Proofs.Symmetric.CounterMode
import Courier.Proofs.Symmetric.GaloisField

/-! # A flipped bit does not open

If the hash key, which is the encrypted zero block, is not zero, then a sealed text
with any one bit flipped does not open. A flip in the ciphertext adds a block with
one bit to one block of the text, which adds a power of `x` times a power of the hash
key to the hash, so the code is another one. A flip in the code leaves the text and
with it the right code. Nothing is assumed of the block cipher itself.
-/

namespace Courier

/-! ## Flips -/

theorem modify_append_left {front : Bytes} {place : Nat} (range : place < front.length)
    (back : Bytes) (f : UInt8 → UInt8) :
    (front ++ back).modify place f = front.modify place f ++ back := by
  induction front generalizing place with
  | nil => exact absurd range (Nat.not_lt_zero _)
  | cons byte front ih =>
      cases place with
      | zero => rfl
      | succ place =>
          rw [List.cons_append, List.modify_succ_cons, ih (Nat.lt_of_succ_lt_succ range),
            List.modify_succ_cons, List.cons_append]

theorem modify_append_right {front : Bytes} {place : Nat} (beyond : front.length ≤ place)
    (back : Bytes) (f : UInt8 → UInt8) :
    (front ++ back).modify place f = front ++ back.modify (place - front.length) f := by
  induction front generalizing place with
  | nil => rfl
  | cons byte front ih =>
      cases place with
      | zero => exact absurd beyond (Nat.not_succ_le_zero _)
      | succ place =>
          rw [List.cons_append, List.modify_succ_cons, ih (Nat.le_of_succ_le_succ beyond),
            List.length_cons, Nat.succ_sub_succ, List.cons_append]

theorem modify_ne_self {bytes : Bytes} {place bit : Nat} (range : place < bytes.length)
    (inByte : bit < 8) : bytes.modify place (· ^^^ UInt8.ofNat (2 ^ bit)) ≠ bytes := by
  intro same
  have byte := congrArg (·[place]?) same
  simp only [List.getElem?_modify_eq, List.getElem?_eq_getElem range, Option.map_eq_map,
    Option.map_some, Option.some.injEq] at byte
  have mask : UInt8.ofNat (2 ^ bit) = 0 :=
    (UInt8.xor_right_inj bytes[place]).mp (byte.trans UInt8.xor_zero.symm)
  have some : ∀ bit < 8, UInt8.ofNat (2 ^ bit) ≠ 0 := by decide
  exact some bit inByte mask

namespace Block

theorem toBytes_inj {x y : Block} (same : x.toBytes = y.toBytes) : x = y := by
  rw [← ofBytes_toBytes x, same, ofBytes_toBytes]

theorem xor_right_cancel {x y key : Block} (same : x.xor key = y.xor key) : x = y := by
  rw [← xor_xor_cancel x key, same, xor_xor_cancel]

/-- A byte changes by the bits of a mask: so does the block. -/
theorem ofBytes_flipped {bytes : Bytes} {place : Nat} (range : place < bytes.length)
    (mask : UInt8) : ofBytes (bytes.modify place (· ^^^ mask)) =
      (ofBytes bytes).xor (ofBytes (List.replicate place 0 ++ [mask])) := by
  have byteAt (i : Nat) : (bytes.modify place (· ^^^ mask)).getD i 0 =
      bytes.getD i 0 ^^^ (List.replicate place 0 ++ [mask]).getD i 0 := by
    induction place generalizing bytes i with
    | zero =>
        obtain ⟨byte, rest, rfl⟩ := List.exists_cons_of_length_pos range
        cases i <;> simp
    | succ place ih =>
        obtain ⟨byte, rest, rfl⟩ := List.exists_cons_of_length_pos (Nat.zero_lt_of_lt range)
        cases i with
        | zero => simp [List.replicate_succ]
        | succ i => simpa [List.replicate_succ] using ih (Nat.lt_of_succ_lt_succ range) i
  simp only [ofBytes, xor, Column.xor, byteAt]

end Block

namespace CounterMode

open FieldElement

/-! ## Hashes -/

/-- Where two hashes go on over the same blocks, their difference is multiplied by the point each
    time. -/
theorem value_hash_sub (point : FieldElement) (xs : List Block) (sum other : FieldElement) :
    (xs.foldl (fun sum x => (sum.add (ofBlock x)).mul point) sum).value -
        (xs.foldl (fun sum x => (sum.add (ofBlock x)).mul point) other).value =
      (sum.value - other.value) * point.value ^ xs.length := by
  induction xs generalizing sum other with
  | nil => simp
  | cons x xs ih =>
      rw [List.foldl_cons, List.foldl_cons, ih, value_mul, value_mul, value_add, value_add,
        List.length_cons]
      ring

/-- A bit in one block changes the hash, at every point but zero. -/
theorem polynomialHash_flipped {point : FieldElement} (nonzero : point ≠ FieldElement.zero)
    (front back : List Block) (x : Block) {place bit : Nat} (inside : place < 16)
    (inByte : bit < 8) :
    polynomialHash point (front ++ x.xor (bitBlock place bit) :: back) ≠
      polynomialHash point (front ++ x :: back) := by
  intro same
  have equal := sub_eq_zero.mpr (congrArg value same)
  rw [polynomialHash, polynomialHash, List.foldl_append, List.foldl_append, List.foldl_cons,
    List.foldl_cons, value_hash_sub, value_mul, value_mul, value_add, value_add, ofBlock_xor,
    value_add, ← sub_mul, add_sub_add_left_eq_sub, add_sub_cancel_left, mul_assoc] at equal
  have power : point.value ^ (1 + back.length) = 0 := by
    rw [pow_add, pow_one]
    exact (isUnit_bitBlock inside inByte).mul_right_eq_zero.mp equal
  exact nonzero (eq_zero_of_pow power)

/-! ## Blocks of a text -/

theorem pieces_succ {bytes : Bytes} (some : bytes ≠ []) (size count : Nat) :
    pieces size (count + 1) bytes = bytes.take size :: pieces size count (bytes.drop size) := by
  cases bytes with
  | nil => exact absurd rfl some
  | cons byte bytes => rfl

/-- Only the piece that a place lies in changes with it. -/
theorem pieces_flipped {size count place : Nat} {bytes : Bytes} (range : place < bytes.length)
    (enough : bytes.length ≤ size * count) (mask : UInt8) :
    ∃ front piece back, pieces size count bytes = front ++ piece :: back ∧
      place % size < piece.length ∧
      pieces size count (bytes.modify place (· ^^^ mask)) =
        front ++ piece.modify (place % size) (· ^^^ mask) :: back := by
  induction count generalizing place bytes with
  | zero => omega
  | succ count ih =>
      have some : bytes ≠ [] := List.ne_nil_of_length_pos (Nat.zero_lt_of_lt range)
      have some' : bytes.modify place (· ^^^ mask) ≠ [] :=
        fun none => some (List.modify_eq_nil_iff.mp none)
      rw [pieces_succ some, pieces_succ some', List.take_modify]
      rw [Nat.mul_succ] at enough
      by_cases first : place < size
      · rw [List.drop_modify_of_lt _ _ _ _ first, Nat.mod_eq_of_lt first]
        refine ⟨[], bytes.take size, pieces size count (bytes.drop size), rfl, ?_, rfl⟩
        rw [List.length_take]
        omega
      · have whole : (bytes.take size).length ≤ place := by
          rw [List.length_take]
          omega
        have rest : place - size < (bytes.drop size).length := by
          rw [List.length_drop]
          omega
        have fits : (bytes.drop size).length ≤ size * count := by
          rw [List.length_drop]
          omega
        obtain ⟨front, piece, back, split, inside, changed⟩ := ih rest fits
        rw [List.drop_modify_of_ge _ _ _ _ (Nat.le_of_not_lt first), List.modify_eq_self whole,
          Nat.mod_eq_sub_mod (Nat.le_of_not_lt first), split, changed]
        exact ⟨bytes.take size :: front, piece, back, rfl, inside, rfl⟩

/-- One bit of the text is one bit of one block. -/
theorem blocks_flipped {bytes : Bytes} {place : Nat} (range : place < bytes.length) (bit : Nat) :
    ∃ front x back, blocks bytes = front ++ x :: back ∧
      blocks (bytes.modify place (· ^^^ UInt8.ofNat (2 ^ bit))) =
        front ++ x.xor (bitBlock (place % 16) bit) :: back := by
  have enough : bytes.length ≤ 16 * bytes.length := Nat.le_mul_of_pos_left _ (by decide)
  obtain ⟨front, piece, back, split, inside, changed⟩ :=
    pieces_flipped range enough (UInt8.ofNat (2 ^ bit))
  refine ⟨front.map .ofBytes, .ofBytes piece, back.map .ofBytes, ?_, ?_⟩
  · rw [blocks, chunks, split, List.map_append, List.map_cons]
  · rw [blocks, chunks, List.length_modify, changed, List.map_append, List.map_cons,
      Block.ofBytes_flipped inside, bitBlock]

/-! ## Sealed texts -/

variable {encrypt : Block → Block} {nonce aad : Bytes} {place bit : Nat}

/-- A flipped bit in a text changes its code. -/
theorem code_flipped (hashes : encrypt .zero ≠ .zero) (counter : Block) {text : Bytes}
    (range : place < text.length) (inByte : bit < 8) :
    code encrypt counter aad (text.modify place (· ^^^ UInt8.ofNat (2 ^ bit))) ≠
      code encrypt counter aad text := by
  intro same
  have nonzero : ofBlock (encrypt .zero) ≠ FieldElement.zero :=
    fun zero => hashes (ofBlock_inj (zero.trans ofBlock_zero.symm))
  obtain ⟨front, x, back, split, changed⟩ := blocks_flipped range bit
  have hash := congrArg ofBlock (Block.xor_right_cancel same)
  rw [ofBlock_toBlock, ofBlock_toBlock, split, changed, lengthBlock, List.length_modify] at hash
  refine polynomialHash_flipped nonzero (blocks aad ++ front)
    (back ++ [lengthBlock aad text]) x (Nat.mod_lt place (by decide)) inByte ?_
  simpa [lengthBlock] using hash

theorem opened?_append (text : Bytes) {code : Bytes} (size : code.length = codeLength) :
    opened? encrypt nonce aad (text ++ code) =
      if code = (CounterMode.code encrypt (startCounter encrypt nonce) aad text).toBytes then
        some (cipher encrypt (startCounter encrypt nonce) text)
      else none := by
  have cut : (text ++ code).length - codeLength = text.length := by
    rw [List.length_append, size, Nat.add_sub_cancel]
  simp only [opened?, cut, List.take_left, List.drop_left]

/-- A sealed text with one bit flipped does not open. -/
theorem opened?_flipped (hashes : encrypt .zero ≠ .zero) (plaintext : Bytes)
    (range : place < (sealed encrypt nonce aad plaintext).length) (inByte : bit < 8) :
    opened? encrypt nonce aad
      ((sealed encrypt nonce aad plaintext).modify place (· ^^^ UInt8.ofNat (2 ^ bit))) = none := by
  generalize counted : startCounter encrypt nonce = counter at *
  generalize ciphered : cipher encrypt counter plaintext = text at *
  simp only [sealed, counted, ciphered] at range ⊢
  by_cases early : place < text.length
  · rw [modify_append_left early, opened?_append _ (Block.length_toBytes _), counted, if_neg]
    exact fun same => code_flipped hashes counter early inByte (Block.toBytes_inj same.symm)
  · have beyond : text.length ≤ place := Nat.le_of_not_lt early
    have size : ((code encrypt counter aad text).toBytes.modify (place - text.length)
        (· ^^^ UInt8.ofNat (2 ^ bit))).length = codeLength := by
      rw [List.length_modify, Block.length_toBytes]
      rfl
    rw [modify_append_right beyond, opened?_append _ size, counted, if_neg]
    refine modify_ne_self ?_ inByte
    rw [List.length_append] at range
    omega

end CounterMode

end Courier
