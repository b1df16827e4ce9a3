import Courier.Symmetric.BlockCipher

/-! # Deciphering and enciphering undo each other

Each step of a round has its inverse, for every round key: the substitution by
a check of all bytes, the shift by definition, the mixing because doubling is
additive. So the block cipher is a permutation of the blocks under every key
schedule. No property of the schedule is used.
-/

namespace Courier

namespace Column

theorem xor_xor_cancel (x key : Column) : (x.xor key).xor key = x := by
  simp only [xor, UInt8.xor_assoc, UInt8.xor_self, UInt8.xor_zero]

end Column

namespace Block

theorem xor_xor_cancel (x key : Block) : (x.xor key).xor key = x := by
  simp [xor, Column.xor_xor_cancel]

theorem map_map (f g : UInt8 → UInt8) (x : Block) : (x.map f).map g = x.map (g ∘ f) := rfl

theorem map_id (x : Block) : x.map id = x := rfl

end Block

namespace BlockCipher

set_option maxRecDepth 8000 in
/-- The two tables are inverse to each other. -/
theorem restore_substitute (b : UInt8) : restore (substitute b) = b := by
  have table : ∀ i : Fin 256, restore (substitute (UInt8.ofFin i)) = UInt8.ofFin i := by
    decide +kernel
  simpa using table b.toFin

theorem restore_comp_substitute : restore ∘ substitute = id :=
  funext restore_substitute

set_option maxRecDepth 8000 in
theorem substitute_restore (b : UInt8) : substitute (restore b) = b := by
  have table : ∀ i : Fin 256, substitute (restore (UInt8.ofFin i)) = UInt8.ofFin i := by
    decide +kernel
  simpa using table b.toFin

theorem substitute_comp_restore : substitute ∘ restore = id :=
  funext substitute_restore

/-! ## Mixing

Write `D` for doubling and `s` for the sum of a column `a b c d`. One mixing
takes `a` to `a + D (a + b) + s`; the sum stays, so two mixings take `a` to
`a + D (D (a + c))`, and four give it back.
-/

theorem double_xor (a b : UInt8) : double (a ^^^ b) = double a ^^^ double b := by
  simp only [double, UInt8.shiftLeft_xor, UInt8.shiftRight_xor]
  ac_rfl

private theorem xor_cancel_left (a b : UInt8) : a ^^^ (a ^^^ b) = b := by
  rw [← UInt8.xor_assoc, UInt8.xor_self, UInt8.zero_xor]

private theorem xor_left_comm (a b c : UInt8) : a ^^^ (b ^^^ c) = b ^^^ (a ^^^ c) := by
  rw [← UInt8.xor_assoc, UInt8.xor_comm a b, UInt8.xor_assoc]

theorem mixColumn_mixColumn (x : Column) : mixColumn (mixColumn x) = mixColumnTwice x := by
  obtain ⟨a, b, c, d⟩ := x
  simp only [mixColumn, mixColumnTwice, double_xor, Column.mk.injEq]
  simp only [UInt8.xor_assoc, UInt8.xor_comm, xor_left_comm, xor_cancel_left, UInt8.xor_self,
    UInt8.xor_zero, UInt8.zero_xor, and_self]

theorem mixColumnTwice_mixColumnTwice (x : Column) : mixColumnTwice (mixColumnTwice x) = x := by
  obtain ⟨a, b, c, d⟩ := x
  simp only [mixColumnTwice, double_xor, Column.mk.injEq]
  simp only [UInt8.xor_assoc, UInt8.xor_comm, xor_left_comm, UInt8.xor_self, UInt8.xor_zero,
    and_self]

theorem unmixColumn_mixColumn (x : Column) : unmixColumn (mixColumn x) = x := by
  rw [unmixColumn, mixColumn_mixColumn, mixColumnTwice_mixColumnTwice]

theorem mixColumn_unmixColumn (x : Column) : mixColumn (unmixColumn x) = x := by
  rw [unmixColumn, ← mixColumn_mixColumn, mixColumn_mixColumn x, mixColumn_mixColumn,
    mixColumnTwice_mixColumnTwice]

theorem unmixColumns_mixColumns (x : Block) : unmixColumns (mixColumns x) = x := by
  simp only [unmixColumns, mixColumns, unmixColumn_mixColumn]

theorem mixColumns_unmixColumns (x : Block) : mixColumns (unmixColumns x) = x := by
  simp only [unmixColumns, mixColumns, mixColumn_unmixColumn]

/-! ## Rounds -/

theorem unround_round (key x : Block) : unround key (round key x) = x := by
  rw [unround, round, Block.xor_xor_cancel, unmixColumns_mixColumns, unshiftRows_shiftRows,
    Block.map_map, restore_comp_substitute, Block.map_id]

theorem unlastRound_lastRound (key x : Block) : unlastRound key (lastRound key x) = x := by
  rw [unlastRound, lastRound, Block.xor_xor_cancel, unshiftRows_shiftRows, Block.map_map,
    restore_comp_substitute, Block.map_id]

theorem round_unround (key x : Block) : round key (unround key x) = x := by
  rw [unround, round, Block.map_map, substitute_comp_restore, Block.map_id, shiftRows_unshiftRows,
    mixColumns_unmixColumns, Block.xor_xor_cancel]

theorem lastRound_unlastRound (key x : Block) : lastRound key (unlastRound key x) = x := by
  rw [unlastRound, lastRound, Block.map_map, substitute_comp_restore, Block.map_id,
    shiftRows_unshiftRows, Block.xor_xor_cancel]

private theorem unrounds_rounds (keys : List Block) (x : Block) :
    keys.foldr unround (keys.foldl (fun x key => round key x) x) = x := by
  induction keys generalizing x with
  | nil => rfl
  | cons key keys ih => rw [List.foldl_cons, List.foldr_cons, ih, unround_round]

private theorem rounds_unrounds (keys : List Block) (x : Block) :
    keys.foldl (fun x key => round key x) (keys.foldr unround x) = x := by
  induction keys with
  | nil => rfl
  | cons key keys ih => rw [List.foldl_cons, List.foldr_cons, round_unround, ih]

/-- Under every key schedule, the plaintext of a ciphertext block is the block that it came from. -/
theorem Schedule.decrypt_encrypt (keys : Schedule) (x : Block) :
    keys.decrypt (keys.encrypt x) = x := by
  rw [decrypt, encrypt, unlastRound_lastRound, unrounds_rounds, Block.xor_xor_cancel]

/-- Every block is the ciphertext of the block that it deciphers to. -/
theorem Schedule.encrypt_decrypt (keys : Schedule) (x : Block) :
    keys.encrypt (keys.decrypt x) = x := by
  rw [decrypt, encrypt, Block.xor_xor_cancel, rounds_unrounds, lastRound_unlastRound]

end BlockCipher

end Courier
