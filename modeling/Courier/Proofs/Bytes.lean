import Courier.Bytes
import Mathlib.Algebra.Ring.Nat
import Mathlib.Data.List.Induction

/-! # Laws of byte strings

The big-endian spelling of a number has one reading, and adding the same bytes
twice changes nothing. Numbers that do not fit in the given width lose their
high part, which is why each law of a format states the width it needs.
-/

namespace Courier

theorem ofBigEndian_append (xs ys : Bytes) :
    ofBigEndian (xs ++ ys) = ofBigEndian xs * 256 ^ ys.length + ofBigEndian ys := by
  have shifted : ∀ (bytes : Bytes) (start : Nat),
      bytes.foldl (fun n b => n * 256 + b.toNat) start =
        start * 256 ^ bytes.length + ofBigEndian bytes := by
    intro bytes
    induction bytes with
    | nil => intro start; simp [ofBigEndian]
    | cons byte rest ih =>
        intro start
        have tail : ofBigEndian (byte :: rest) =
            byte.toNat * 256 ^ rest.length + ofBigEndian rest := by
          simpa [ofBigEndian] using ih byte.toNat
        rw [List.foldl_cons, ih, tail, List.length_cons, pow_succ, Nat.add_mul, Nat.mul_assoc,
          Nat.mul_comm 256, Nat.add_assoc]
  calc
    ofBigEndian (xs ++ ys) = ys.foldl (fun n b => n * 256 + b.toNat) (ofBigEndian xs) :=
      List.foldl_append
    _ = ofBigEndian xs * 256 ^ ys.length + ofBigEndian ys := shifted ys _

theorem ofBigEndian_lt (bytes : Bytes) : ofBigEndian bytes < 256 ^ bytes.length := by
  induction bytes using List.reverseRecOn with
  | nil => simp [ofBigEndian]
  | append_singleton front byte ih =>
      have last : ofBigEndian [byte] = byte.toNat := by simp [ofBigEndian]
      have small := byte.toNat_lt
      rw [ofBigEndian_append, last, List.length_append, List.length_singleton, pow_one,
        pow_succ 256 front.length]
      omega

/-- Reading a spelled number gives its low part. -/
theorem ofBigEndian_bigEndian (width n : Nat) :
    ofBigEndian (bigEndian width n) = n % 256 ^ width := by
  induction width generalizing n with
  | zero => simp [bigEndian, ofBigEndian, Nat.mod_one]
  | succ width ih =>
      have last : ofBigEndian [UInt8.ofNat n] = n % 256 := by simp [ofBigEndian]
      rw [bigEndian, ofBigEndian_append, ih, last, List.length_singleton, pow_one, pow_succ,
        Nat.mul_comm (256 ^ width), Nat.mod_mul, Nat.mul_comm, Nat.add_comm]

theorem ofBigEndian_bigEndian_of_lt {width n : Nat} (fits : n < 256 ^ width) :
    ofBigEndian (bigEndian width n) = n := by
  rw [ofBigEndian_bigEndian, Nat.mod_eq_of_lt fits]

/-- Numbers that fit in a width are spelled differently. -/
theorem bigEndian_inj {width m n : Nat} (hm : m < 256 ^ width) (hn : n < 256 ^ width)
    (same : bigEndian width m = bigEndian width n) : m = n := by
  rw [← ofBigEndian_bigEndian_of_lt hm, same, ofBigEndian_bigEndian_of_lt hn]

/-- Every byte string spells its number. -/
theorem bigEndian_ofBigEndian (bytes : Bytes) :
    bigEndian bytes.length (ofBigEndian bytes) = bytes := by
  induction bytes using List.reverseRecOn with
  | nil => rfl
  | append_singleton front byte ih =>
      have last : ofBigEndian [byte] = byte.toNat := by simp [ofBigEndian]
      have small := byte.toNat_lt
      have high : (ofBigEndian front * 256 + byte.toNat) / 256 = ofBigEndian front := by omega
      have low : UInt8.ofNat (ofBigEndian front * 256 + byte.toNat) = byte := by
        apply UInt8.toNat_inj.mp
        rw [UInt8.toNat_ofNat']
        omega
      rw [List.length_append, List.length_singleton, bigEndian, ofBigEndian_append, last,
        List.length_singleton, pow_one, high, low, ih]

/-- Adding bytes that are long enough twice gives the text back. -/
theorem xorBytes_cancel {xs ys : Bytes} (long : xs.length ≤ ys.length) :
    xorBytes (xorBytes xs ys) ys = xs := by
  induction xs generalizing ys with
  | nil => simp [xorBytes]
  | cons x xs ih =>
      cases ys with
      | nil => simp at long
      | cons y ys =>
          have rest := ih (show xs.length ≤ ys.length by simpa using long)
          simp only [xorBytes, List.zipWith_cons_cons] at rest ⊢
          rw [rest, UInt8.xor_assoc, UInt8.xor_self, UInt8.xor_zero]

end Courier
