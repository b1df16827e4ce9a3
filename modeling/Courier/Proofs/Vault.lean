import Courier.Password.Vault
import Courier.Proofs.Bytes
import Courier.Proofs.Symmetric.CounterMode

/-! # What a password opens

A sealed text starts with its header, and the header says under which key and
nonce the rest is sealed. So the text behind a blob is the one whose sealing
under that header makes the blob, and there is none behind anything else. The
cipher opens texts that are up to one block longer than those that it seals,
which is the only thing that sealing and opening disagree on. Of the blobs that
no sealing makes, those that hold such a text open, and no others.
-/

namespace Courier

namespace Secret

/-- What the cipher opens is what it seals, up to its limits. -/
theorem decrypt_eq_ok_iff (s : Secret) (nonce text plaintext : Bytes) :
    s.decrypt nonce [] text = .ok plaintext ↔
      plaintext.length ≤ maxCiphertext ∧ text = s.sealed nonce [] plaintext := by
  have opens := CounterMode.opened?_eq_some_iff s.schedule.encrypt nonce [] text plaintext
  have length := CounterMode.length_sealed s.schedule.encrypt nonce [] plaintext
  constructor
  · intro opened
    simp only [decrypt] at opened
    split at opened
    · cases opened
    split at opened
    next limits =>
      split at opened
      next found =>
        obtain rfl := Except.ok.inj opened
        have whole : text = s.sealed nonce [] _ := opens.mp found
        refine ⟨?_, whole⟩
        have size := congrArg List.length whole
        rw [sealed, length] at size
        omega
      · cases opened
    · cases opened
  · rintro ⟨small, rfl⟩
    have size : (s.sealed nonce [] plaintext).length =
        plaintext.length + CounterMode.codeLength := length
    have found : s.opened? nonce [] (s.sealed nonce [] plaintext) = some plaintext := opens.mpr rfl
    have long : ¬ (s.sealed nonce [] plaintext).length < CounterMode.codeLength := by omega
    have limits : (s.sealed nonce [] plaintext).length - CounterMode.codeLength ≤ maxCiphertext ∧
        ([] : Bytes).length ≤ maxPlaintext := ⟨by omega, Nat.zero_le _⟩
    rw [decrypt, if_neg long, if_pos limits, found]

end Secret

namespace Vault

namespace Header

variable {header : Header}

@[simp] theorem length_toBytes (header : Header) : header.toBytes.length = length := by
  simp [toBytes, length]

theorem isUsable_iff :
    header.isUsable = true ↔ 0 < header.iterations ∧ header.iterations ≤ maxIterations := by
  simp [isUsable]

/-- A number of iterations that sealing accepts fits in its four bytes. -/
theorem ofBytes_toBytes_append (usable : header.isUsable = true) (rest : Bytes) :
    ofBytes (header.toBytes ++ rest) = header := by
  obtain ⟨salt, iterations, nonce⟩ := header
  have fits : iterations < 256 ^ 4 := by
    have most := (isUsable_iff.mp usable).2
    simp only [maxIterations] at most
    omega
  have first : ((Header.mk salt iterations nonce).toBytes ++ rest).take 16 = salt.toBytes := rfl
  have second : (((Header.mk salt iterations nonce).toBytes ++ rest).drop 16).take 4 =
      bigEndian 4 iterations := rfl
  have third : (((Header.mk salt iterations nonce).toBytes ++ rest).drop 20).take 16 =
      nonce.toBytes := rfl
  rw [ofBytes, first, second, third, Block.ofBytes_toBytes, Block.ofBytes_toBytes,
    ofBigEndian_bigEndian_of_lt fits]

/-- Bytes that are long enough start with the header that is read off them. -/
theorem toBytes_ofBytes {bytes : Bytes} (long : length ≤ bytes.length) :
    (ofBytes bytes).toBytes = bytes.take length := by
  simp only [length] at long
  have salt : (bytes.take 16).length = 16 := by simp; omega
  have count : ((bytes.drop 16).take 4).length = 4 := by simp; omega
  have nonce : ((bytes.drop 20).take 16).length = 16 := by simp; omega
  have iterations := bigEndian_ofBigEndian ((bytes.drop 16).take 4)
  rw [count] at iterations
  rw [toBytes, ofBytes, Block.toBytes_ofBytes salt, Block.toBytes_ofBytes nonce, iterations]
  calc
    bytes.take 16 ++ (bytes.drop 16).take 4 ++ (bytes.drop 20).take 16 =
        bytes.take (16 + 4) ++ (bytes.drop 20).take 16 := by rw [List.take_add]
    _ = bytes.take (20 + 16) := (List.take_add ..).symm

end Header

variable {blob : Bytes} {password : String} {plaintext : Bytes}

theorem lock_eq_ok_iff (header : Header) :
    lock header password plaintext = .ok blob ↔
      header.isUsable = true ∧ plaintext.length ≤ Secret.maxPlaintext ∧
        blob = header.toBytes ++
          (header.key password).sealed header.nonce.toBytes [] plaintext := by
  simp only [lock, Secret.encrypt]
  by_cases usable : header.isUsable = true
  · by_cases short : plaintext.length ≤ Secret.maxPlaintext
    · simp [usable, short, Except.map, eq_comm]
    · simp [usable, short, Except.map]
  · simp [usable]

/-- A blob opens to a text exactly if it is a header that sealing accepts and the text sealed under
    it. -/
theorem unlock?_eq_some_iff :
    unlock? blob password = some plaintext ↔
      ∃ header : Header, header.isUsable = true ∧ plaintext.length ≤ Secret.maxCiphertext ∧
        blob = header.toBytes ++
          (header.key password).sealed header.nonce.toBytes [] plaintext := by
  constructor
  · intro opened
    simp only [unlock?] at opened
    split at opened
    next format =>
      obtain ⟨long, usable⟩ := format
      rcases decrypted : ((Header.ofBytes blob).key password).decrypt
          (Header.ofBytes blob).nonce.toBytes [] (blob.drop Header.length) with fault | text
      · rw [decrypted] at opened
        cases opened
      · rw [decrypted] at opened
        obtain rfl := Option.some.inj opened
        obtain ⟨small, sealed⟩ := (Secret.decrypt_eq_ok_iff ..).mp decrypted
        refine ⟨.ofBytes blob, usable, small, ?_⟩
        rw [← sealed, Header.toBytes_ofBytes (Nat.le_trans (Nat.le_add_right ..) long),
          List.take_append_drop]
    · cases opened
  · rintro ⟨header, usable, small, rfl⟩
    have read := Header.ofBytes_toBytes_append usable
      ((header.key password).sealed header.nonce.toBytes [] plaintext)
    have behind : (header.toBytes ++ (header.key password).sealed header.nonce.toBytes []
        plaintext).drop Header.length =
          (header.key password).sealed header.nonce.toBytes [] plaintext := by
      rw [← header.length_toBytes, List.drop_left]
    have decrypted := (Secret.decrypt_eq_ok_iff (header.key password) header.nonce.toBytes _
      plaintext).mpr ⟨small, rfl⟩
    have long : Header.length + CounterMode.codeLength ≤ (header.toBytes ++
        (header.key password).sealed header.nonce.toBytes [] plaintext).length := by
      simp [Secret.sealed, CounterMode.length_sealed]
    simp only [unlock?, read, behind, decrypted]
    rw [if_pos ⟨long, usable⟩]
    rfl

/-- A text that is longer than the cipher seals makes no blob that sealing makes. -/
theorem lock_ne_ok_of_long {header : Header} (long : Secret.maxPlaintext < plaintext.length)
    (other : Header) (text : Bytes) :
    lock other password text ≠ .ok (header.toBytes ++
      (header.key password).sealed header.nonce.toBytes [] plaintext) := by
  intro locked
  obtain ⟨-, short, whole⟩ := (lock_eq_ok_iff other).mp locked
  have size := congrArg List.length whole
  simp only [List.length_append, Header.length_toBytes, Secret.sealed,
    CounterMode.length_sealed] at size
  omega

/-- For texts that the cipher seals, a blob opens to a text exactly if sealing it makes the blob,
    with the header that the blob starts with and no other. A blob that no sealing makes opens to
    nothing, or to a text that is longer than the cipher seals and no longer than it opens. It opens
    to such a text exactly if it is a header that sealing accepts, followed by that text under its
    code. -/
theorem opens_iff_locked (blob : Bytes) (password : String) :
    (∀ plaintext : Bytes, plaintext.length ≤ Secret.maxPlaintext →
      (unlock? blob password = some plaintext ↔
        ∃ header : Header, (0 < header.iterations ∧ header.iterations ≤ maxIterations) ∧
          lock header password plaintext = .ok blob)) ∧
      (∀ header plaintext, lock header password plaintext = .ok blob →
        header = .ofBytes blob ∧ blob.take Header.length =
          header.salt.toBytes ++ bigEndian 4 header.iterations ++ header.nonce.toBytes) ∧
      ((∀ header plaintext, lock header password plaintext ≠ .ok blob) →
        unlock? blob password = none ∨
          ∃ plaintext, unlock? blob password = some plaintext ∧
            Secret.maxPlaintext < plaintext.length ∧ plaintext.length ≤ Secret.maxCiphertext ∧
            blob.length = Header.length + (plaintext.length + CounterMode.codeLength)) ∧
      ∀ plaintext : Bytes, Secret.maxPlaintext < plaintext.length →
        (unlock? blob password = some plaintext ↔ plaintext.length ≤ Secret.maxCiphertext ∧
          ∃ header : Header, (0 < header.iterations ∧ header.iterations ≤ maxIterations) ∧
            blob = header.toBytes ++
              (header.key password).sealed header.nonce.toBytes [] plaintext) := by
  refine ⟨fun plaintext short => ?_, fun header plaintext locked => ?_, fun foreign => ?_,
    fun plaintext _ => ?_⟩
  · rw [unlock?_eq_some_iff]
    constructor
    · rintro ⟨header, usable, -, whole⟩
      exact ⟨header, Header.isUsable_iff.mp usable,
        (lock_eq_ok_iff header).mpr ⟨usable, short, whole⟩⟩
    · rintro ⟨header, -, locked⟩
      obtain ⟨usable, -, whole⟩ := (lock_eq_ok_iff header).mp locked
      exact ⟨header, usable, Nat.le_trans short (by decide), whole⟩
  · obtain ⟨usable, -, rfl⟩ := (lock_eq_ok_iff header).mp locked
    refine ⟨(Header.ofBytes_toBytes_append usable _).symm, ?_⟩
    rw [← header.length_toBytes, List.take_left]
    rfl
  · rcases opened : unlock? blob password with _ | plaintext
    · exact .inl rfl
    · obtain ⟨header, usable, small, whole⟩ := unlock?_eq_some_iff.mp opened
      have long : Secret.maxPlaintext < plaintext.length := by
        refine Nat.lt_of_not_le fun short => foreign header plaintext ?_
        exact (lock_eq_ok_iff header).mpr ⟨usable, short, whole⟩
      have size : blob.length = Header.length + (plaintext.length + CounterMode.codeLength) := by
        rw [whole, List.length_append, Header.length_toBytes, Secret.sealed,
          CounterMode.length_sealed]
      exact .inr ⟨plaintext, rfl, long, small, size⟩
  · rw [unlock?_eq_some_iff]
    constructor
    · rintro ⟨header, usable, small, whole⟩
      exact ⟨small, header, Header.isUsable_iff.mp usable, whole⟩
    · rintro ⟨small, header, usable, whole⟩
      exact ⟨header, Header.isUsable_iff.mpr usable, small, whole⟩

/-- A text sealed with the most iterations there are, and three bytes that are no sealed text. -/
theorem opens_iff_locked_most_iterations :
    let header : Header := ⟨.ofBytes [1, 2, 3], maxIterations, .ofBytes [4, 5, 6]⟩
    (∃ blob, lock header "password" [7, 8, 9] = .ok blob ∧ header = .ofBytes blob ∧
      unlock? blob "password" = some [7, 8, 9]) ∧ unlock? [7, 8, 9] "password" = none := by
  intro header
  constructor
  · obtain ⟨blob, locked⟩ : ∃ blob, lock header "password" [7, 8, 9] = .ok blob :=
      ⟨_, (lock_eq_ok_iff header).mpr ⟨by decide, by decide, rfl⟩⟩
    obtain ⟨opens, headers, -⟩ := opens_iff_locked blob "password"
    exact ⟨blob, locked, (headers header [7, 8, 9] locked).1,
      (opens [7, 8, 9] (by decide)).mpr ⟨header, by decide, locked⟩⟩
  · have foreign : ∀ header plaintext, lock header "password" plaintext ≠ .ok [7, 8, 9] := by
      intro header plaintext locked
      obtain ⟨-, -, whole⟩ := (lock_eq_ok_iff header).mp locked
      have size := congrArg List.length whole
      simp only [List.length_append, Header.length_toBytes, Header.length, List.length_cons,
        List.length_nil] at size
      omega
    obtain ⟨-, -, others, -⟩ := opens_iff_locked [7, 8, 9] "password"
    rcases others foreign with closed | ⟨plaintext, -, -, -, size⟩
    · exact closed
    · simp only [Header.length, List.length_cons, List.length_nil] at size
      omega

/-- Some blobs that no sealing makes open all the same: here a ciphertext of zeros that is one byte
    longer than the cipher makes them. -/
theorem not_forall_foreign_closed :
    ¬ ∀ blob password, (∀ header plaintext, lock header password plaintext ≠ .ok blob) →
      unlock? blob password = none := by
  intro closed
  let header : Header := ⟨.ofBytes [1, 2, 3], 1, .ofBytes [4, 5, 6]⟩
  let encrypt := (header.key "password").schedule.encrypt
  let plaintext := CounterMode.cipher encrypt
    (CounterMode.startCounter encrypt header.nonce.toBytes)
    (List.replicate (Secret.maxPlaintext + 1) 0)
  have length : plaintext.length = Secret.maxPlaintext + 1 := by
    rw [CounterMode.length_cipher, List.length_replicate]
  have long : Secret.maxPlaintext < plaintext.length := by omega
  have small : plaintext.length ≤ Secret.maxCiphertext := by
    rw [length]
    decide
  have opened : unlock? (header.toBytes ++
      (header.key "password").sealed header.nonce.toBytes [] plaintext) "password" =
        some plaintext :=
    unlock?_eq_some_iff.mpr ⟨header, by decide, small, rfl⟩
  rw [closed _ "password" (lock_ne_ok_of_long long)] at opened
  cases opened

end Vault

end Courier
