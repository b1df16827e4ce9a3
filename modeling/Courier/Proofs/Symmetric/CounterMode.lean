import Courier.Proofs.Bytes
import Courier.Symmetric.CounterMode

/-! # What authenticated encryption accepts

For any block permutation, any nonce and any associated data, a sealed text
opens to the plaintext that it was made of, and nothing else opens: the code is
computed from the ciphertext, and the keystream only depends on the nonce.
Nothing is said here about how hard a sealed text is to make without the key.
-/

namespace Courier.CounterMode

@[simp] theorem length_keystream (encrypt : Block → Block) (counter : Block) (count : Nat) :
    (keystream encrypt counter count).length = 16 * count := by
  induction count generalizing counter with
  | zero => rfl
  | succ count ih =>
      rw [keystream, List.length_append, Block.length_toBytes, ih, Nat.mul_succ, Nat.add_comm]

@[simp] theorem length_cipher (encrypt : Block → Block) (counter : Block) (text : Bytes) :
    (cipher encrypt counter text).length = text.length := by
  simp only [cipher, length_xorBytes, length_keystream]
  omega

/-- The keystream depends on the length of a text only, so adding it twice gives the text back. -/
theorem cipher_cipher (encrypt : Block → Block) (counter : Block) (text : Bytes) :
    cipher encrypt counter (cipher encrypt counter text) = text := by
  have long : text.length ≤ (keystream encrypt counter ((text.length + 15) / 16)).length := by
    rw [length_keystream]
    omega
  have same : (cipher encrypt counter text).length = text.length :=
    length_cipher encrypt counter text
  rw [cipher, same, cipher, xorBytes_cancel long]

@[simp] theorem length_sealed (encrypt : Block → Block) (nonce aad plaintext : Bytes) :
    (sealed encrypt nonce aad plaintext).length = plaintext.length + codeLength := by
  simp [sealed, codeLength]

/-- A text opens to a plaintext exactly if sealing that plaintext makes the text. -/
theorem opened?_eq_some_iff (encrypt : Block → Block) (nonce aad text plaintext : Bytes) :
    opened? encrypt nonce aad text = some plaintext ↔
      text = sealed encrypt nonce aad plaintext := by
  constructor
  · intro accepted
    simp only [opened?] at accepted
    split at accepted
    next genuine =>
      simp only [Option.some.injEq] at accepted
      subst accepted
      simp only [sealed, cipher_cipher]
      rw [← genuine, List.take_append_drop]
    · cases accepted
  · rintro rfl
    have cut : (sealed encrypt nonce aad plaintext).length - codeLength =
        (cipher encrypt (startCounter encrypt nonce) plaintext).length := by
      rw [length_sealed, length_cipher, Nat.add_sub_cancel]
    simp only [opened?, cut]
    simp only [sealed, List.take_left, List.drop_left, if_true, cipher_cipher]

end Courier.CounterMode
