import Courier.Proofs.Bytes
import Courier.Proofs.Secret

/-! # What is digested tells what it is for

The bytes digested for a derived secret end in a context of four bytes and the
length of the result, so the label is what stands before, and label and context
tell the purpose. The bytes digested for a root secret are four fields with
their lengths in front, so the fields can be cut off one by one. In both cases
two different questions are never asked with the same bytes.

Nothing is said about the digests themselves.
-/

namespace Courier

/-! ## Labels and contexts -/

namespace Purpose

/-- For each label the purpose that has it, with this context if it takes one. -/
def ofContext (context : Nat) : List Purpose :=
  let role := if context = 0 then Role.alice else .bob
  [groupSalt, transportSecret (.ofNat context), periodSecret context, tagKey .alice, tagKey .bob,
    frameKey .alice context, frameKey .bob context, confirmationCode role, invitationNonce role]

/-- A purpose can be looked up by its label and its context. -/
theorem find?_ofContext (purpose : Purpose) :
    (ofContext purpose.context).find? (·.label = purpose.label) = some purpose := by
  rcases purpose with _ | transport | period | (_ | _) | ⟨_ | _, stream⟩ | (_ | _) | (_ | _)
  case transportSecret =>
    have found : (ofContext transport.toNat).find? (·.label = (transportSecret transport).label) =
        some (transportSecret (.ofNat transport.toNat)) := rfl
    rwa [UInt32.ofNat_toNat] at found
  all_goals rfl

theorem eq_of_label_of_context {p q : Purpose} (labels : p.label = q.label)
    (contexts : p.context = q.context) : p = q := by
  have found := p.find?_ofContext
  rw [labels, contexts, q.find?_ofContext] at found
  exact (Option.some.inj found).symm

end Purpose

namespace Secret

variable {label label' : Bytes} {context context' : Nat}

theorem derivationInput_inj (range : context ≤ maxContext) (range' : context' ≤ maxContext)
    (same : derivationInput label context = derivationInput label' context') :
    label = label' ∧ context = context' := by
  have small : maxContext < 256 ^ 4 := by decide
  obtain ⟨fronts, -⟩ := List.append_inj' same rfl
  obtain ⟨labels, contexts⟩ := List.append_inj' fronts (by simp only [length_bigEndian])
  exact ⟨List.tail_eq_of_cons_eq labels, bigEndian_inj (Nat.lt_of_le_of_lt range small)
    (Nat.lt_of_le_of_lt range' small) contexts⟩

end Secret

/-! ## Fields with their lengths -/

namespace AgreementFields

/-- Bytes with their number in front. -/
def counted (bytes : Bytes) : Bytes :=
  UInt8.ofNat bytes.length :: bytes

/-- Every field has a length that fits in a byte. -/
structure Short (fields : AgreementFields) : Prop where
  rawSecret : fields.rawSecret.length ≤ 255
  label : fields.label.length ≤ 255
  initiator : fields.initiator.length ≤ 255
  responder : fields.responder.length ≤ 255

/-- The fields one after the other, each with its length in front. -/
def joined (fields : AgreementFields) : Bytes :=
  counted fields.rawSecret ++ counted fields.label ++ counted fields.initiator ++
    counted fields.responder

variable {fields other : AgreementFields} {root : Secret}

theorem prefixed_of_short {bytes : Bytes} (field : String) (short : bytes.length ≤ 255) :
    prefixed field bytes = .ok (counted bytes) :=
  if_pos short

/-- What goes on after a field goes on with that field counted. -/
theorem short_of_prefixed {α : Type} {field : String} {bytes : Bytes}
    {next : Bytes → Except CryptoFault α} {value : α}
    (made : prefixed field bytes >>= next = .ok value) :
    bytes.length ≤ 255 ∧ next (counted bytes) = .ok value := by
  by_cases short : bytes.length ≤ 255
  · rw [prefixed_of_short field short] at made
    exact ⟨short, made⟩
  · rw [prefixed, if_neg short] at made
    cases made

theorem input_of_short (short : fields.Short) : fields.input = .ok fields.joined := by
  rw [input, prefixed_of_short _ short.rawSecret, prefixed_of_short _ short.label,
    prefixed_of_short _ short.initiator, prefixed_of_short _ short.responder]
  rfl

theorem short_of_input {bytes : Bytes} (made : fields.input = .ok bytes) : fields.Short := by
  obtain ⟨rawSecret, made⟩ := short_of_prefixed made
  obtain ⟨label, made⟩ := short_of_prefixed made
  obtain ⟨initiator, made⟩ := short_of_prefixed made
  obtain ⟨responder, -⟩ := short_of_prefixed made
  exact ⟨rawSecret, label, initiator, responder⟩

theorem counted_append_inj {xs ys rest rest' : Bytes} (short : xs.length ≤ 255)
    (short' : ys.length ≤ 255) (same : counted xs ++ rest = counted ys ++ rest') :
    xs = ys ∧ rest = rest' := by
  obtain ⟨counts, bytes⟩ := List.cons.inj same
  have lengths : xs.length = ys.length := by
    have numbers := congrArg UInt8.toNat counts
    rw [UInt8.toNat_ofNat', UInt8.toNat_ofNat'] at numbers
    omega
  exact List.append_inj bytes lengths

theorem joined_inj (short : fields.Short) (short' : other.Short)
    (same : fields.joined = other.joined) : fields = other := by
  simp only [joined, List.append_assoc] at same
  obtain ⟨rawSecrets, same⟩ := counted_append_inj short.rawSecret short'.rawSecret same
  obtain ⟨labels, same⟩ := counted_append_inj short.label short'.label same
  obtain ⟨initiators, same⟩ := counted_append_inj short.initiator short'.initiator same
  have responders := List.tail_eq_of_cons_eq same
  cases fields
  cases other
  simp_all

theorem secret_of_short (short : fields.Short) :
    ∃ root, fields.secret = .ok root ∧
      root.bytes = (doubleDigest fields.joined).take secretLength := by
  rw [secret, input_of_short short]
  exact ⟨_, rfl, rfl⟩

theorem short_of_secret (made : fields.secret = .ok root) : fields.Short := by
  rcases read : fields.input with fault | bytes
  · rw [secret, read] at made
    cases made
  · exact short_of_input read

end AgreementFields

namespace Secret

private theorem exists_error_of_ne_ok {ε α : Type} {result : Except ε α}
    (failed : ∀ value, result ≠ .ok value) : ∃ fault, result = .error fault := by
  cases result with
  | error fault => exact ⟨fault, rfl⟩
  | ok value => exact absurd rfl (failed value)

/-- The bytes that are digested for a secret differ whenever the purpose, the role or the context
    does, and those for a root secret whenever one of the four fields does. A blank secret, a
    context above 32 bits, an open label or a field above 255 bytes give no secret at all. -/
theorem inputs_separated :
    (∀ (s s' key key' : Secret) (p q : Purpose), s.derive p = .ok key → s'.derive q = .ok key' →
      key.bytes = (keyedDigest s.bytes (derivationInput p.label p.context)).take secretLength ∧
      key'.bytes = (keyedDigest s'.bytes (derivationInput q.label q.context)).take secretLength ∧
      (derivationInput p.label p.context = derivationInput q.label q.context → p = q)) ∧
    (∀ (fields other : AgreementFields) (root root' : Secret), fields.secret = .ok root →
      other.secret = .ok root' → ∃ input input',
        fields.input = .ok input ∧ root.bytes = (doubleDigest input).take secretLength ∧
        other.input = .ok input' ∧ root'.bytes = (doubleDigest input').take secretLength ∧
        (input = input' → fields = other)) ∧
    (∀ (s : Secret) (label : Bytes) (context : Nat),
      s.isBlank = true ∨ maxContext < context ∨ label.getLast? ≠ some 0 →
        ∃ fault, s.deriveLabelled label context = .error fault) ∧
    (∀ (s : Secret) (purpose : Purpose), s.isBlank = true ∨ maxContext < purpose.context →
      ∃ fault, s.derive purpose = .error fault) ∧
    ∀ fields : AgreementFields, 255 < fields.rawSecret.length ∨ 255 < fields.label.length ∨
      255 < fields.initiator.length ∨ 255 < fields.responder.length →
        ∃ fault, fields.secret = .error fault := by
  refine ⟨fun s s' key key' p q derived derived' => ?_,
    fun fields other root root' made made' => ?_, fun s label context unfit => ?_,
    fun s purpose unfit => ?_, fun fields long => ?_⟩
  · obtain ⟨⟨-, range⟩, bytes⟩ := derive_eq_ok_iff.mp derived
    obtain ⟨⟨-, range'⟩, bytes'⟩ := derive_eq_ok_iff.mp derived'
    refine ⟨bytes, bytes', fun same => ?_⟩
    obtain ⟨labels, contexts⟩ := derivationInput_inj range range' same
    exact Purpose.eq_of_label_of_context labels contexts
  · have short := AgreementFields.short_of_secret made
    have short' := AgreementFields.short_of_secret made'
    obtain ⟨root, again, bytes⟩ := AgreementFields.secret_of_short short
    obtain ⟨root', again', bytes'⟩ := AgreementFields.secret_of_short short'
    obtain rfl := Except.ok.inj (again.symm.trans made)
    obtain rfl := Except.ok.inj (again'.symm.trans made')
    exact ⟨_, _, AgreementFields.input_of_short short, bytes,
      AgreementFields.input_of_short short', bytes', AgreementFields.joined_inj short short'⟩
  · refine exists_error_of_ne_ok fun key derived => ?_
    obtain ⟨⟨usable, closed, range⟩, -⟩ := deriveLabelled_eq_ok_iff.mp derived
    simp [usable, closed, Nat.not_lt.mpr range] at unfit
  · refine exists_error_of_ne_ok fun key derived => ?_
    obtain ⟨⟨usable, range⟩, -⟩ := derive_eq_ok_iff.mp derived
    simp [usable, Nat.not_lt.mpr range] at unfit
  · refine exists_error_of_ne_ok fun root made => ?_
    obtain ⟨rawSecret, label, initiator, responder⟩ := AgreementFields.short_of_secret made
    omega

/-- The two directions of a stream, two root secrets whose fields only differ in where one ends, and
    a context of 33 bits. -/
theorem inputs_separated_directions :
    let s := repeated 7
    let early : AgreementFields := ⟨[1, 2], [3], [], []⟩
    let late : AgreementFields := ⟨[1], [2, 3], [], []⟩
    (∃ key key', s.derive (.frameKey .alice 3) = .ok key ∧ s.derive (.frameKey .bob 3) = .ok key' ∧
      derivationInput (utf8 "A_FRAME" ++ [0]) 3 ≠ derivationInput (utf8 "B_FRAME" ++ [0]) 3) ∧
    (∃ input input', early.input = .ok input ∧ late.input = .ok input' ∧ input ≠ input') ∧
    ∃ fault, s.derive (.periodSecret (2 ^ 32)) = .error fault := by
  intro s early late
  obtain ⟨purposes, fields, -, unfit, -⟩ := inputs_separated
  obtain ⟨key, derived⟩ := derive_of_usable (s := s) (.frameKey .alice 3) (by decide) (by decide)
  obtain ⟨key', derived'⟩ := derive_of_usable (s := s) (.frameKey .bob 3) (by decide) (by decide)
  obtain ⟨-, -, separated⟩ := purposes _ _ _ _ _ _ derived derived'
  obtain ⟨root, made, -⟩ := early.secret_of_short ⟨by decide, by decide, by decide, by decide⟩
  obtain ⟨root', made', -⟩ := late.secret_of_short ⟨by decide, by decide, by decide, by decide⟩
  obtain ⟨input, input', read, -, read', -, apart⟩ := fields _ _ _ _ made made'
  exact ⟨⟨key, key', derived, derived', fun same => absurd (separated same) (by decide)⟩,
    ⟨input, input', read, read', fun same => absurd (apart same) (by decide)⟩,
    unfit s _ (.inr (by decide))⟩

end Secret

end Courier
