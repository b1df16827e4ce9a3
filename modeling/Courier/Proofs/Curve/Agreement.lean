import Courier.Curve.KeyPair
import Courier.Proofs.Separation

/-! # Agreeing on a root secret

Either side of a key agreement hashes the raw secret and the digests of both
public keys, that of the initiator first. If the raw secrets are equal, then the
two sides hash the same bytes when one of them is the initiator and the other is
not, and in general only then. That multiples of multiples commute on the curve
is not shown here, it is what the statements start from.
-/

namespace Courier.KeyPair

open Curve (Point coordinateLength)

variable {ours theirs : KeyPair} {our their : Point}

theorem length_rawSecret (ours : KeyPair) (their : Point) :
    (ours.rawSecret their).length = coordinateLength := by
  rw [rawSecret]
  split <;> exact length_bigEndian ..

/-- A raw secret and digests are never too long for a field. -/
theorem short_agreementFields (ours : KeyPair) (their : Point) (publicKey : Bytes)
    (initiator : Bool) :
    (ours.agreementFields publicKey initiator (ours.rawSecret their)).Short := by
  have digest : Digest.length ≤ 255 := by decide
  constructor
  · show (ours.rawSecret their).length ≤ 255
    rw [length_rawSecret]
    decide
  · show (utf8 "MASTER" ++ [0]).length ≤ 255
    decide
  · cases initiator <;> exact digest
  · cases initiator <;> exact digest

/-- The sides of an agreement fill in the same fields if they have different parts in it; with one
    part for both, the digest that one puts first is the one that the other puts last. -/
theorem agreementFields_eq_iff (ours theirs : KeyPair) (first second : Bool) (rawSecret : Bytes) :
    ours.agreementFields theirs.publicKey first rawSecret =
        theirs.agreementFields ours.publicKey second rawSecret ↔
      first ≠ second ∨ doubleDigest ours.publicKey = doubleDigest theirs.publicKey := by
  cases first <;> cases second <;> simp [agreementFields, eq_comm]

theorem rootSecret_of_spelled {publicKey : Bytes} (spelled : Point.decode? publicKey = some their)
    (ours : KeyPair) (initiator : Bool) :
    ours.rootSecret publicKey initiator =
      (ours.agreementFields publicKey initiator (ours.rawSecret their)).secret := by
  simp [rootSecret, point, spelled, bind, Except.bind]

/-- Both public keys spell points, and either side comes to the same raw secret by multiplying the
    point of the other. Multiples of multiples commute, so fresh key pairs are like this. -/
def AgreesWith (ours theirs : KeyPair) : Prop :=
  ∃ our their, Point.decode? ours.publicKey = some our ∧
    Point.decode? theirs.publicKey = some their ∧ ours.rawSecret their = theirs.rawSecret our

/-- The side that started and the other come to the same root secret. -/
theorem AgreesWith.rootSecret {root : Secret} (agrees : ours.AgreesWith theirs)
    (rooted : ours.rootSecret theirs.publicKey true = .ok root) :
    theirs.rootSecret ours.publicKey false = .ok root := by
  obtain ⟨our, their, spelled, spelled', shared⟩ := agrees
  have fields := (agreementFields_eq_iff ours theirs true false (theirs.rawSecret our)).mpr
    (.inl (by decide))
  rw [rootSecret_of_spelled spelled', shared, fields] at rooted
  rw [rootSecret_of_spelled spelled, rooted]

/-- If the public keys spell points and the raw secrets are equal, both sides come to a root secret
    whatever part they take, and they hash the same bytes for it exactly if they take different
    parts or their public keys have one digest. -/
theorem hashed_eq_iff (spelled : Point.decode? ours.publicKey = some our)
    (spelled' : Point.decode? theirs.publicKey = some their)
    (shared : ours.rawSecret their = theirs.rawSecret our) (first second : Bool) :
    ∃ (hashed hashed' : Bytes) (root root' : Secret),
      (ours.agreementFields theirs.publicKey first (ours.rawSecret their)).input = .ok hashed ∧
      ours.rootSecret theirs.publicKey first = .ok root ∧
      root.bytes = (doubleDigest hashed).take secretLength ∧
      (theirs.agreementFields ours.publicKey second (theirs.rawSecret our)).input = .ok hashed' ∧
      theirs.rootSecret ours.publicKey second = .ok root' ∧
      root'.bytes = (doubleDigest hashed').take secretLength ∧
      (hashed = hashed' ↔
        first ≠ second ∨ doubleDigest ours.publicKey = doubleDigest theirs.publicKey) ∧
      (hashed = hashed' → root = root') := by
  have short := ours.short_agreementFields their theirs.publicKey first
  have short' := theirs.short_agreementFields our ours.publicKey second
  obtain ⟨root, rooted, bytes⟩ := AgreementFields.secret_of_short short
  obtain ⟨root', rooted', bytes'⟩ := AgreementFields.secret_of_short short'
  refine ⟨_, _, root, root', AgreementFields.input_of_short short,
    (rootSecret_of_spelled spelled' ..).trans rooted, bytes, AgreementFields.input_of_short short',
    (rootSecret_of_spelled spelled ..).trans rooted', bytes', ?_, fun same => ?_⟩
  · rw [← agreementFields_eq_iff ours theirs first second (theirs.rawSecret our)]
    rw [shared] at short ⊢
    exact ⟨AgreementFields.joined_inj short short', congrArg _⟩
  · obtain ⟨bytes, length⟩ := root
    obtain ⟨bytes', length'⟩ := root'
    simp_all

/-- The key pairs of the two smallest scalars: both sides hash the same bytes if the first is the
    initiator and the second is not, and different bytes if both are. -/
theorem hashed_eq_iff_smallest :
    (∃ root, (ofScalar 1).rootSecret (ofScalar 2).publicKey true = .ok root ∧
      (ofScalar 2).rootSecret (ofScalar 1).publicKey false = .ok root) ∧
    ∃ (their : Point) (our : Point) (hashed hashed' : Bytes),
      ((ofScalar 1).agreementFields (ofScalar 2).publicKey true
        ((ofScalar 1).rawSecret their)).input = .ok hashed ∧
      ((ofScalar 2).agreementFields (ofScalar 1).publicKey true
        ((ofScalar 2).rawSecret our)).input = .ok hashed' ∧ hashed ≠ hashed' := by
  have spelled : Point.decode? (ofScalar 1).publicKey = some Curve.generator := by decide +kernel
  obtain ⟨their, spelled', shared⟩ : ∃ their, Point.decode? (ofScalar 2).publicKey = some their ∧
      (ofScalar 1).rawSecret their = (ofScalar 2).rawSecret Curve.generator := by
    have computed : (Point.decode? (ofScalar 2).publicKey).any (fun their =>
        (ofScalar 1).rawSecret their = (ofScalar 2).rawSecret Curve.generator) = true := by
      decide +kernel
    simpa [Option.any_eq_true] using computed
  have digests : doubleDigest (ofScalar 1).publicKey ≠ doubleDigest (ofScalar 2).publicKey := by
    decide +kernel
  obtain ⟨hashed, hashed', root, root', -, rooted, -, -, rooted', -, same, equal⟩ :=
    hashed_eq_iff spelled spelled' shared true false
  obtain ⟨both, both', -, -, read, -, -, read', -, -, apart, -⟩ :=
    hashed_eq_iff spelled spelled' shared true true
  have agreed : root = root' := equal (same.mpr (.inl (by decide)))
  exact ⟨⟨root, rooted, agreed ▸ rooted'⟩, their, _, both, both', read, read',
    fun equal => (apart.mp equal).elim (absurd rfl) digests⟩

end Courier.KeyPair
