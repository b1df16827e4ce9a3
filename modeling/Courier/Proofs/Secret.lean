import Courier.Secret.Derivation

/-! # When a secret is derived

Every purpose has a label that a derivation takes, so a derivation fails for
two reasons only: the secret is blank or the number is out of range.
-/

namespace Courier

theorem Purpose.label_closed (purpose : Purpose) : purpose.label.getLast? = some 0 := by
  cases purpose with
  | groupSalt | transportSecret | periodSecret | confirmationCode | invitationNonce =>
      simp [label]
  | tagKey role => cases role <;> simp [label]
  | frameKey role stream => cases role <;> simp [label]

namespace Secret

variable {s key : Secret} {purpose : Purpose} {label : Bytes} {context : Nat}

/-- A derivation succeeds exactly for a secret that is not blank, a label that is closed and a
    context in range, and then it is the keyed digest of both. -/
theorem deriveLabelled_eq_ok_iff :
    s.deriveLabelled label context = .ok key ↔
      (s.isBlank = false ∧ label.getLast? = some 0 ∧ context ≤ maxContext) ∧
        key.bytes = (keyedDigest s.bytes (derivationInput label context)).take secretLength := by
  obtain ⟨bytes, length⟩ := key
  rw [deriveLabelled]
  split
  next blank => simp [blank]
  next usable =>
    split
    next unclosed => simp [unclosed]
    next closed =>
      split
      next high => simp [Nat.not_le.mpr high]
      next range =>
        simp [usable, Decidable.of_not_not closed, Nat.le_of_not_lt range, truncate, eq_comm]

theorem derive_eq_ok_iff :
    s.derive purpose = .ok key ↔
      (s.isBlank = false ∧ purpose.context ≤ maxContext) ∧
        key.bytes = (keyedDigest s.bytes
          (derivationInput purpose.label purpose.context)).take secretLength := by
  rw [derive]
  split
  next high => simp [Nat.not_le.mpr high]
  next => simp [deriveLabelled_eq_ok_iff, purpose.label_closed]

/-- A derivation succeeds exactly for a secret that is not blank and a number in range. -/
theorem derive_isOk_iff (s : Secret) (purpose : Purpose) :
    (∃ key, s.derive purpose = .ok key) ↔
      s.isBlank = false ∧ purpose.context ≤ maxContext := by
  have long : secretLength ≤ (keyedDigest s.bytes
      (derivationInput purpose.label purpose.context)).length := by
    rw [length_keyedDigest]
    decide
  exact ⟨fun ⟨_, derived⟩ => (derive_eq_ok_iff.mp derived).1,
    fun fits => ⟨truncate _ long, derive_eq_ok_iff.mpr ⟨fits, rfl⟩⟩⟩

theorem derive_of_usable (purpose : Purpose) (usable : s.isBlank = false)
    (range : purpose.context ≤ maxContext) : ∃ key, s.derive purpose = .ok key :=
  (s.derive_isOk_iff purpose).mpr ⟨usable, range⟩

theorem usable_of_computed
    (computed : (s.derive purpose).toOption.all (!·.isBlank) = true) :
    ∀ key, s.derive purpose = .ok key → key.isBlank = false := by
  intro key derived
  simpa [derived, Except.toOption] using computed

/-- The secret that repeats one byte. -/
def repeated (byte : UInt8) : Secret :=
  ⟨List.replicate secretLength byte, List.length_replicate⟩

end Secret

end Courier
