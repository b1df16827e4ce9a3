import Courier.Symmetric.GaloisField
import Mathlib.Algebra.CharP.Two
import Mathlib.Data.List.GetD
import Mathlib.Algebra.Field.ZMod
import Mathlib.FieldTheory.Separable
import Mathlib.RingTheory.AdjoinRoot

/-! # Field elements as polynomials

A field element spells a polynomial, and its value is the class of that polynomial
modulo `x^128 + x^7 + x^2 + x + 1`. Sums, products and multiples of `x` are those of
the classes. The modulus has no repeated factor and `x` is a unit, so a power of an
element that is not zero times a power of `x` is not zero. That the modulus is
irreducible is not needed. A block with a single bit spells a power of `x`.
-/

namespace Courier

namespace FieldElement

open Polynomial

/-! ## Bits -/

/-- Both words in one, the constant coefficient first. -/
def bits (v : FieldElement) : BitVec 128 :=
  v.high.toBitVec ++ v.low.toBitVec

/-- Every coefficient one place up; the last one is lost. -/
def shifted (v : FieldElement) : FieldElement :=
  ⟨v.high >>> 1, (v.low >>> 1) ^^^ (v.high <<< 63)⟩

/-- What `x^128` is modulo the modulus. -/
def reduced : FieldElement :=
  ⟨0xE100000000000000, 0⟩

theorem append_inj {m n : Nat} {x x' : BitVec m} {y y' : BitVec n} (same : x ++ y = x' ++ y') :
    x = x' ∧ y = y' := by
  constructor
  · rw [← BitVec.extractLsb'_append_eq_left (a := x) (b := y), same,
      BitVec.extractLsb'_append_eq_left]
  · rw [← BitVec.extractLsb'_append_eq_right (a := x) (b := y), same,
      BitVec.extractLsb'_append_eq_right]

theorem eq_of_bits {x y : FieldElement} (same : x.bits = y.bits) : x = y := by
  obtain ⟨high, low⟩ := append_inj same
  cases x
  cases y
  rw [mk.injEq]
  exact ⟨UInt64.toBitVec_inj.mp high, UInt64.toBitVec_inj.mp low⟩

theorem bits_add (x y : FieldElement) : (x.add y).bits = x.bits ^^^ y.bits := by
  rw [bits, bits, bits, BitVec.xor_append]
  rfl

theorem bits_shifted (v : FieldElement) : v.shifted.bits = v.bits >>> 1 := by
  apply BitVec.eq_of_getLsbD_eq
  intro i range
  simp only [bits, shifted, UInt64.toBitVec_xor, UInt64.toBitVec_shiftRight,
    UInt64.toBitVec_shiftLeft, BitVec.getLsbD_append, BitVec.getLsbD_ushiftRight]
  -- only bit 63 crosses from one word to the other
  obtain below | rfl | above : i < 63 ∨ i = 63 ∨ 64 ≤ i := by omega
  · have next : 1 + i < 64 := by omega
    have here : i < 64 := by omega
    simp [below, next, here]
  · simp
  · have next : ¬ 1 + i < 64 := by omega
    have here : ¬ i < 64 := by omega
    have same : 1 + i - 64 = 1 + (i - 64) := by omega
    simp [next, here, same]

/-- Multiplying by `x` moves the coefficients up, and what goes out at the end comes back
    reduced. -/
theorem timesX_eq (v : FieldElement) :
    v.timesX = if v.bits.getLsbD 0 then v.shifted.add reduced else v.shifted := by
  have lowest : v.bits.getLsbD 0 = v.low.toBitVec.getLsbD 0 := by
    rw [bits, BitVec.getLsbD_append, if_pos (by decide)]
  have out : v.low &&& 1 = if v.low.toBitVec.getLsbD 0 then 1 else 0 := by
    rw [← UInt64.toBitVec_inj]
    apply BitVec.eq_of_getLsbD_eq
    intro i range
    split <;> simp <;> grind
  rw [timesX, out, lowest]
  cases v.low.toBitVec.getLsbD 0 with
  | true =>
      have places : (1 : UInt64) <<< 63 ^^^ ((1 : UInt64) <<< 62 ^^^
          ((1 : UInt64) <<< 61 ^^^ (1 : UInt64) <<< 56)) = 0xE100000000000000 := by decide
      simp [add, shifted, reduced, UInt64.xor_assoc, places]
  | false => simp [shifted]

/-! ## Coefficients -/

theorem bit_eq_getLsbD (word : UInt64) {i : Nat} (range : i < 64) :
    ((word >>> UInt64.ofNat i) &&& 1 == 1) = word.toBitVec.getLsbD i := by
  rw [BitVec.getLsbD, UInt64.toNat_toBitVec, Nat.testBit, Bool.eq_iff_iff]
  simp [← UInt64.toNat_inj, Nat.mod_eq_of_lt range]

@[simp] theorem length_bitsOf (count : Nat) (word : UInt64) :
    (bitsOf count word).length = count := by
  induction count with
  | zero => rfl
  | succ count ih => rw [bitsOf, List.length_cons, ih]

theorem getD_bitsOf {count : Nat} (range : count ≤ 64) (word : UInt64) (i : Nat) :
    (bitsOf count word).getD i false =
      (decide (i < count) && word.toBitVec.getLsbD (count - 1 - i)) := by
  induction count generalizing i with
  | zero => simp [bitsOf]
  | succ count ih =>
      rw [bitsOf, bit_eq_getLsbD word range]
      cases i with
      | zero => simp
      | succ i =>
          have same : count + 1 - 1 - (i + 1) = count - 1 - i := by omega
          rw [List.getD_cons_succ, ih (by omega), same]
          simp

/-- The coefficients are the bits, the most significant one first. -/
theorem getD_coefficients (v : FieldElement) (i : Nat) :
    v.coefficients.getD i false = v.bits.getMsbD i := by
  rw [coefficients, bits, BitVec.getMsbD_append]
  by_cases front : i < 64
  · rw [List.getD_append _ _ _ _ (by rwa [length_bitsOf]), getD_bitsOf (Nat.le_refl _),
      if_neg (Nat.not_le.mpr front)]
    rfl
  · rw [List.getD_append_right _ _ _ _ (by rw [length_bitsOf]; omega), length_bitsOf,
      getD_bitsOf (Nat.le_refl _), if_pos (Nat.le_of_not_lt front)]
    rfl

/-- The polynomial with these coefficients, constant first. -/
noncomputable def ofBits : List Bool → (ZMod 2)[X]
  | [] => 0
  | bit :: bits => (if bit then 1 else 0) + X * ofBits bits

theorem coeff_ofBits (bits : List Bool) (i : Nat) :
    (ofBits bits).coeff i = if bits.getD i false then 1 else 0 := by
  induction bits generalizing i with
  | nil => simp [ofBits]
  | cons bit bits ih =>
      cases i with
      | zero => cases bit <;> simp [ofBits]
      | succ i => cases bit <;> simp [ofBits, ih, coeff_one]

/-- The polynomial that an element spells. -/
noncomputable def polynomial (v : FieldElement) : (ZMod 2)[X] :=
  ofBits v.coefficients

theorem coeff_polynomial (v : FieldElement) (i : Nat) :
    v.polynomial.coeff i = if v.bits.getMsbD i then 1 else 0 := by
  rw [polynomial, coeff_ofBits, getD_coefficients]

theorem degree_polynomial_lt (v : FieldElement) : v.polynomial.degree < 128 := by
  refine (degree_lt_iff_coeff_zero _ 128).mpr fun i beyond => ?_
  rw [coeff_polynomial, BitVec.getMsbD_of_ge _ _ beyond]
  rfl

@[simp] theorem polynomial_zero : zero.polynomial = 0 := by
  have none : zero.bits = 0 := rfl
  ext i
  rw [coeff_polynomial, none]
  simp

@[simp] theorem polynomial_add (x y : FieldElement) :
    (x.add y).polynomial = x.polynomial + y.polynomial := by
  ext i
  rw [coeff_add, coeff_polynomial, coeff_polynomial, coeff_polynomial, bits_add,
    BitVec.getMsbD_xor]
  cases x.bits.getMsbD i <;> cases y.bits.getMsbD i <;> decide

/-- Only zero spells the zero polynomial. -/
theorem eq_zero_of_polynomial {v : FieldElement} (none : v.polynomial = 0) : v = zero := by
  refine eq_of_bits (BitVec.eq_of_getMsbD_eq fun i range => ?_)
  have its := v.coeff_polynomial i
  rw [none, coeff_zero] at its
  cases bit : v.bits.getMsbD i with
  | true =>
      rw [bit] at its
      cases its
  | false => exact BitVec.getMsbD_zero.symm

theorem ofBits_replicate (count : Nat) : ofBits (List.replicate count false) = 0 := by
  induction count with
  | zero => rfl
  | succ count ih => simp [List.replicate_succ, ofBits, ih]

theorem polynomial_reduced : reduced.polynomial = X ^ 7 + X ^ 2 + X + 1 := by
  have spelled : reduced.coefficients = [true, true, true, false, false, false, false, true] ++
      List.replicate 120 false := by decide +kernel
  rw [polynomial, spelled]
  simp only [List.cons_append, List.nil_append, ofBits, ofBits_replicate]
  simp
  ring

/-- One place up, the highest power is lost. -/
theorem polynomial_shifted (v : FieldElement) :
    X * v.polynomial = v.shifted.polynomial + if v.bits.getLsbD 0 then X ^ 128 else 0 := by
  have last : v.bits.getLsbD 0 = v.bits.getMsbD 127 := by
    rw [BitVec.getMsbD_eq_getLsbD]
    rfl
  ext i
  rw [coeff_add, coeff_polynomial, bits_shifted, BitVec.getMsbD_ushiftRight, last]
  have power : (if v.bits.getMsbD 127 then (X ^ 128 : (ZMod 2)[X]) else 0).coeff i =
      if v.bits.getMsbD 127 ∧ i = 128 then 1 else 0 := by
    cases v.bits.getMsbD 127 <;> simp [coeff_X_pow]
  rw [power]
  cases i with
  | zero => simp
  | succ i =>
      rw [coeff_X_mul, coeff_polynomial]
      obtain below | rfl | beyond : i < 127 ∨ i = 127 ∨ 128 ≤ i := by omega
      · have inside : i + 1 < 128 := by omega
        have other : i + 1 ≠ 128 := by omega
        simp [inside, other]
      · simp
      · have outside : ¬ i + 1 < 128 := by omega
        have other : i + 1 ≠ 128 := by omega
        rw [BitVec.getMsbD_of_ge _ _ beyond]
        simp [outside, other]

/-! ## Classes -/

/-- `x^128 + x^7 + x^2 + x + 1` over the field of two elements. -/
@[irreducible]
noncomputable def modulus : (ZMod 2)[X] :=
  X ^ 128 + (X ^ 7 + X ^ 2 + X + 1)

theorem degree_modulus : modulus.degree = 128 := by
  unfold modulus
  compute_degree!

theorem derivative_modulus : derivative modulus = X ^ 6 + 1 := by
  have even : ((128 : Nat) : ZMod 2) = 0 := (ZMod.natCast_eq_zero_iff 128 2).mpr (by decide)
  have even' : ((2 : Nat) : ZMod 2) = 0 := rfl
  have odd : ((7 : Nat) : ZMod 2) = 1 := rfl
  unfold modulus
  simp only [derivative_add, derivative_X_pow, derivative_X, derivative_one, even, even', odd]
  simp

/-- The modulus is one more than a multiple of its derivative, so it has no repeated factor. -/
theorem squarefree_modulus : Squarefree modulus := by
  have two : (2 : (ZMod 2)[X]) = 0 := CharTwo.two_eq_zero
  have sum : (∑ i ∈ Finset.range 21, (X ^ 6 : (ZMod 2)[X]) ^ i) * (X ^ 6 + 1) = X ^ 126 + 1 := by
    rw [← CharTwo.sub_eq_add, geom_sum_mul, CharTwo.sub_eq_add, ← pow_mul]
  refine Separable.squarefree ⟨1, X ^ 2 * (∑ i ∈ Finset.range 21, (X ^ 6) ^ i) + X, ?_⟩
  rw [derivative_modulus]
  unfold modulus
  linear_combination X ^ 2 * sum + (X ^ 128 + X ^ 7 + X ^ 2 + X) * two

/-- The class of the polynomial that an element spells. -/
noncomputable def value (v : FieldElement) : AdjoinRoot modulus :=
  AdjoinRoot.mk modulus v.polynomial

@[simp] theorem value_zero : zero.value = 0 := by
  rw [value, polynomial_zero, map_zero]

@[simp] theorem value_add (x y : FieldElement) : (x.add y).value = x.value + y.value := by
  rw [value, polynomial_add, map_add, value, value]

/-- Only zero has a power in the class of zero. -/
theorem eq_zero_of_pow {v : FieldElement} {n : Nat} (none : v.value ^ n = 0) : v = zero := by
  rw [value, ← map_pow, AdjoinRoot.mk_eq_zero] at none
  have divides : modulus ∣ v.polynomial := squarefree_modulus.isRadical n _ none
  have short : v.polynomial.degree < modulus.degree :=
    lt_of_lt_of_eq (degree_polynomial_lt v) degree_modulus.symm
  exact eq_zero_of_polynomial (eq_zero_of_dvd_of_degree_lt divides short)

theorem value_timesX (v : FieldElement) :
    v.timesX.value = AdjoinRoot.root modulus * v.value := by
  have moved : X * v.polynomial =
      v.timesX.polynomial + if v.bits.getLsbD 0 then modulus else 0 := by
    rw [polynomial_shifted, timesX_eq]
    cases v.bits.getLsbD 0 with
    | true =>
        simp only [if_true, polynomial_add, polynomial_reduced]
        unfold modulus
        -- the reduced part stands twice
        linear_combination -(X ^ 7 + X ^ 2 + X + 1) * (CharTwo.two_eq_zero : (2 : (ZMod 2)[X]) = 0)
    | false => simp
  rw [value, value, ← AdjoinRoot.mk_X, ← map_mul, moved, map_add]
  split
  · rw [AdjoinRoot.mk_self, add_zero]
  · rw [map_zero, add_zero]

/-- The class of `x` is a unit: the modulus is one more than a multiple of `x`. -/
theorem isUnit_root : IsUnit (AdjoinRoot.root modulus) := by
  have whole : X * (X ^ 127 + X ^ 6 + X + 1) = modulus + 1 := by
    unfold modulus
    linear_combination -(CharTwo.two_eq_zero : (2 : (ZMod 2)[X]) = 0)
  refine IsUnit.of_mul_eq_one (AdjoinRoot.mk modulus (X ^ 127 + X ^ 6 + X + 1)) ?_
  rw [← AdjoinRoot.mk_X, ← map_mul, whole, map_add, AdjoinRoot.mk_self, zero_add, map_one]

theorem value_mulAdd (coefficients : List Bool) (v total : FieldElement) :
    (mulAdd coefficients v total).value =
      AdjoinRoot.mk modulus (ofBits coefficients) * v.value + total.value := by
  induction coefficients generalizing v total with
  | nil => simp [mulAdd, ofBits]
  | cons bit coefficients ih =>
      rw [mulAdd, ih, value_timesX, ofBits, map_add, map_mul, AdjoinRoot.mk_X]
      cases bit
      · simp
        ring
      · simp
        ring

theorem value_mul (x y : FieldElement) : (x.mul y).value = x.value * y.value := by
  rw [mul, value_mulAdd, value_zero, add_zero]
  rfl

/-! ## Blocks -/

/-- One more byte after the bits of a word, which stand `places` above its end. -/
theorem append_byte {n : Nat} (front : BitVec n) (byte : UInt8) (places : Nat) :
    (front.setWidth 64 <<< (places + 8)) ^^^ (byte.toUInt64.toBitVec <<< places) =
      (front ++ byte.toBitVec).setWidth 64 <<< places := by
  apply BitVec.eq_of_getLsbD_eq
  intro i range
  simp only [UInt8.toBitVec_toUInt64, BitVec.getLsbD_xor, BitVec.getLsbD_shiftLeft,
    BitVec.getLsbD_setWidth, BitVec.getLsbD_append, range, decide_true, Bool.true_and]
  -- below the byte, in it, and above it
  obtain below | ⟨here, inside⟩ | above :
      i < places ∨ (places ≤ i ∧ i - places < 8) ∨ places + 8 ≤ i := by omega
  · have next : i < places + 8 := by omega
    simp [below, next]
  · have reached : ¬ i < places := by omega
    have next : i < places + 8 := by omega
    have small : i - places < 64 := by omega
    simp [inside, reached, next, small]
  · have reached : ¬ i < places := by omega
    have next : ¬ i < places + 8 := by omega
    have outside : ¬ i - places < 8 := by omega
    have small : i - places < 64 := by omega
    have smaller : i - (places + 8) < 64 := by omega
    rw [BitVec.getLsbD_of_ge _ _ (Nat.le_of_not_lt outside)]
    simp [reached, next, outside, small, smaller, Nat.sub_sub]

theorem toBitVec_word (x y : Column) :
    (word x y).toBitVec = x.a.toBitVec ++ x.b.toBitVec ++ x.c.toBitVec ++ x.d.toBitVec ++
      y.a.toBitVec ++ y.b.toBitVec ++ y.c.toBitVec ++ y.d.toBitVec := by
  have first : x.a.toUInt64.toBitVec <<< 56 = x.a.toBitVec.setWidth 64 <<< (48 + 8) := by simp
  have shifts : (word x y).toBitVec =
      x.a.toUInt64.toBitVec <<< 56 ^^^ x.b.toUInt64.toBitVec <<< 48 ^^^
        x.c.toUInt64.toBitVec <<< 40 ^^^ x.d.toUInt64.toBitVec <<< 32 ^^^
        y.a.toUInt64.toBitVec <<< 24 ^^^ y.b.toUInt64.toBitVec <<< 16 ^^^
        y.c.toUInt64.toBitVec <<< 8 ^^^ y.d.toUInt64.toBitVec <<< 0 := by
    rw [BitVec.shiftLeft_zero]
    rfl
  rw [shifts, first, append_byte, append_byte _ _ 40, append_byte _ _ 32, append_byte _ _ 24,
    append_byte _ _ 16, append_byte _ _ 8, append_byte _ _ 0, BitVec.shiftLeft_zero]
  exact BitVec.setWidth_eq _

theorem word_xor (x y x' y' : Column) :
    word (x.xor x') (y.xor y') = word x y ^^^ word x' y' := by
  rw [← UInt64.toBitVec_inj, UInt64.toBitVec_xor]
  simp only [toBitVec_word, Column.xor, UInt8.toBitVec_xor, ← BitVec.xor_append]

theorem ofBlock_xor (x y : Block) : ofBlock (x.xor y) = (ofBlock x).add (ofBlock y) := by
  simp only [ofBlock, Block.xor, word_xor, add]

theorem toBitVec_byteAt (w : UInt64) {places : UInt64} (range : places.toNat < 64) :
    (w >>> places).toUInt8.toBitVec = w.toBitVec.extractLsb' places.toNat 8 := by
  apply BitVec.eq_of_getLsbD_eq
  intro i inside
  have small : i < 64 := by omega
  simp [inside, Nat.mod_eq_of_lt range, small]

/-- A word is made of the bytes in its columns. -/
theorem word_columns (w : UInt64) : word (highColumn w) (lowColumn w) = w := by
  have lowest : w.toUInt8.toBitVec = w.toBitVec.extractLsb' 0 8 := by
    simpa using toBitVec_byteAt w (by decide : (0 : UInt64).toNat < 64)
  rw [← UInt64.toBitVec_inj, toBitVec_word]
  simp (disch := decide) only [highColumn, lowColumn, lowest, toBitVec_byteAt]
  iterate 7 rw [BitVec.extractLsb'_append_extractLsb'_eq_extractLsb' (by decide)]
  exact BitVec.extractLsb'_eq_self

theorem ofBlock_toBlock (v : FieldElement) : ofBlock v.toBlock = v := by
  rw [ofBlock, toBlock, word_columns, word_columns]

theorem word_inj {x y x' y' : Column} (same : word x y = word x' y') : x = x' ∧ y = y' := by
  have bits := congrArg UInt64.toBitVec same
  rw [toBitVec_word, toBitVec_word] at bits
  obtain ⟨bits, yd⟩ := append_inj bits
  obtain ⟨bits, yc⟩ := append_inj bits
  obtain ⟨bits, yb⟩ := append_inj bits
  obtain ⟨bits, ya⟩ := append_inj bits
  obtain ⟨bits, xd⟩ := append_inj bits
  obtain ⟨bits, xc⟩ := append_inj bits
  obtain ⟨xa, xb⟩ := append_inj bits
  cases x
  cases y
  simp only [UInt8.toBitVec_inj] at *
  subst xa xb xc xd ya yb yc yd
  exact ⟨rfl, rfl⟩

theorem ofBlock_inj {x y : Block} (same : ofBlock x = ofBlock y) : x = y := by
  rw [ofBlock, ofBlock, mk.injEq] at same
  obtain ⟨c0, c1⟩ := word_inj same.1
  obtain ⟨c2, c3⟩ := word_inj same.2
  cases x
  cases y
  subst c0 c1 c2 c3
  rfl

theorem ofBlock_zero : ofBlock .zero = zero := rfl

/-- The block in which a single bit is set. -/
def bitBlock (place bit : Nat) : Block :=
  .ofBytes (List.replicate place 0 ++ [UInt8.ofNat (2 ^ bit)])

theorem bits_bitBlock : ∀ place < 16, ∀ bit < 8,
    (ofBlock (bitBlock place bit)).bits = BitVec.twoPow 128 (120 - 8 * place + bit) := by
  decide +kernel

theorem polynomial_bitBlock {place bit : Nat} (inside : place < 16) (inByte : bit < 8) :
    (ofBlock (bitBlock place bit)).polynomial = X ^ (127 - (120 - 8 * place + bit)) := by
  have range : 120 - 8 * place + bit < 128 := by omega
  ext i
  rw [coeff_polynomial, bits_bitBlock place inside bit inByte, BitVec.getMsbD_twoPow, coeff_X_pow]
  simp only [range, decide_true, Bool.true_and, decide_eq_true_eq]
  congr 2
  omega

/-- A block with a single bit is a power of `x`, so it is a unit. -/
theorem isUnit_bitBlock {place bit : Nat} (inside : place < 16) (inByte : bit < 8) :
    IsUnit (ofBlock (bitBlock place bit)).value := by
  rw [value, polynomial_bitBlock inside inByte, map_pow, AdjoinRoot.mk_X]
  exact isUnit_root.pow _

end FieldElement

end Courier
