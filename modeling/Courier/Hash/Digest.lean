import Courier.Bytes

/-! # The 48-byte digest

SHA-384. The message is padded to blocks of 128 bytes; each block is expanded
to eighty words, which are stirred into a state of eight words one by one. The
digest is the first six words of the last state.

A state after whole blocks can be kept and continued, which is what the keyed
digest does with its two key blocks.
-/

namespace Courier.Digest

def length : Nat := 48

def blockLength : Nat := 128

/-- The eight words that the message is stirred into. -/
structure State where
  a : UInt64
  b : UInt64
  c : UInt64
  d : UInt64
  e : UInt64
  f : UInt64
  g : UInt64
  h : UInt64
  deriving DecidableEq, Repr

/-- Sixteen consecutive words of the expanded block. -/
structure Window where
  w0 : UInt64
  w1 : UInt64
  w2 : UInt64
  w3 : UInt64
  w4 : UInt64
  w5 : UInt64
  w6 : UInt64
  w7 : UInt64
  w8 : UInt64
  w9 : UInt64
  w10 : UInt64
  w11 : UInt64
  w12 : UInt64
  w13 : UInt64
  w14 : UInt64
  w15 : UInt64

/-- Rotation to the right by `n` places, `0 < n < 64`. -/
@[inline] def rotate (w n : UInt64) : UInt64 :=
  (w >>> n) ||| (w <<< (64 - n))

/-- The next sixteen words: drop the first and append the one that the sixteen determine. -/
def Window.slide (w : Window) : Window :=
  let early := rotate w.w1 1 ^^^ rotate w.w1 8 ^^^ (w.w1 >>> 7)
  let late := rotate w.w14 19 ^^^ rotate w.w14 61 ^^^ (w.w14 >>> 6)
  ⟨w.w1, w.w2, w.w3, w.w4, w.w5, w.w6, w.w7, w.w8, w.w9, w.w10, w.w11, w.w12, w.w13, w.w14, w.w15,
    w.w0 + early + w.w9 + late⟩

/-- Stir one word in, together with the constant of its round. -/
def State.stir (s : State) (constant w : UInt64) : State :=
  let choice := (s.e &&& s.f) ^^^ (~~~ s.e &&& s.g)
  let majority := (s.a &&& s.b) ^^^ (s.a &&& s.c) ^^^ (s.b &&& s.c)
  let t := s.h + (rotate s.e 14 ^^^ rotate s.e 18 ^^^ rotate s.e 41) + choice + constant + w
  let u := (rotate s.a 28 ^^^ rotate s.a 34 ^^^ rotate s.a 39) + majority
  ⟨t + u, s.a, s.b, s.c, s.d + t, s.e, s.f, s.g⟩

/-- The constants of the eighty rounds: the fractional parts of the cube roots of the first eighty
    primes. -/
def roundConstants : List UInt64 := [
  0x428a2f98d728ae22, 0x7137449123ef65cd, 0xb5c0fbcfec4d3b2f, 0xe9b5dba58189dbbc,
  0x3956c25bf348b538, 0x59f111f1b605d019, 0x923f82a4af194f9b, 0xab1c5ed5da6d8118,
  0xd807aa98a3030242, 0x12835b0145706fbe, 0x243185be4ee4b28c, 0x550c7dc3d5ffb4e2,
  0x72be5d74f27b896f, 0x80deb1fe3b1696b1, 0x9bdc06a725c71235, 0xc19bf174cf692694,
  0xe49b69c19ef14ad2, 0xefbe4786384f25e3, 0x0fc19dc68b8cd5b5, 0x240ca1cc77ac9c65,
  0x2de92c6f592b0275, 0x4a7484aa6ea6e483, 0x5cb0a9dcbd41fbd4, 0x76f988da831153b5,
  0x983e5152ee66dfab, 0xa831c66d2db43210, 0xb00327c898fb213f, 0xbf597fc7beef0ee4,
  0xc6e00bf33da88fc2, 0xd5a79147930aa725, 0x06ca6351e003826f, 0x142929670a0e6e70,
  0x27b70a8546d22ffc, 0x2e1b21385c26c926, 0x4d2c6dfc5ac42aed, 0x53380d139d95b3df,
  0x650a73548baf63de, 0x766a0abb3c77b2a8, 0x81c2c92e47edaee6, 0x92722c851482353b,
  0xa2bfe8a14cf10364, 0xa81a664bbc423001, 0xc24b8b70d0f89791, 0xc76c51a30654be30,
  0xd192e819d6ef5218, 0xd69906245565a910, 0xf40e35855771202a, 0x106aa07032bbd1b8,
  0x19a4c116b8d2d0c8, 0x1e376c085141ab53, 0x2748774cdf8eeb99, 0x34b0bcb5e19b48a8,
  0x391c0cb3c5c95a63, 0x4ed8aa4ae3418acb, 0x5b9cca4f7763e373, 0x682e6ff3d6b2b8a3,
  0x748f82ee5defb2fc, 0x78a5636f43172f60, 0x84c87814a1f0ab72, 0x8cc702081a6439ec,
  0x90befffa23631e28, 0xa4506cebde82bde9, 0xbef9a3f7b2c67915, 0xc67178f2e372532b,
  0xca273eceea26619c, 0xd186b8c721c0c207, 0xeada7dd6cde0eb1e, 0xf57d4f7fee6ed178,
  0x06f067aa72176fba, 0x0a637dc5a2c898a6, 0x113f9804bef90dae, 0x1b710b35131c471b,
  0x28db77f523047d84, 0x32caab7b40c72493, 0x3c9ebe0a15c9bebc, 0x431d67c49c100d4c,
  0x4cc5d4becb3e42b6, 0x597f299cfc657e2a, 0x5fcb6fab3ad6faec, 0x6c44198c4a475817]

/-- The fractional parts of the square roots of the ninth to sixteenth primes. -/
def start : State :=
  ⟨0xcbbb9d5dc1059ed8, 0x629a292a367cd507,
    0x9159015a3070dd17, 0x152fecd8f70e5939,
    0x67332667ffc00b31, 0x8eb44a8768581511,
    0xdb0c2e0d64f98fa7, 0x47b5481dbefa4fa4⟩

/-- One round for each constant. -/
def stirAll : (constants : List UInt64) → Window → State → State
  | [], _, s => s
  | constant :: constants, w, s => stirAll constants w.slide (s.stir constant w.w0)

def State.add (s t : State) : State :=
  ⟨s.a + t.a, s.b + t.b, s.c + t.c, s.d + t.d, s.e + t.e, s.f + t.f, s.g + t.g, s.h + t.h⟩

/-- Big-endian words of eight bytes; a rest of fewer bytes is dropped. -/
def words : Bytes → List UInt64
  | a :: b :: c :: d :: e :: f :: g :: h :: rest =>
      ((a.toUInt64 <<< 56) ||| (b.toUInt64 <<< 48) ||| (c.toUInt64 <<< 40) |||
        (d.toUInt64 <<< 32) ||| (e.toUInt64 <<< 24) ||| (f.toUInt64 <<< 16) |||
        (g.toUInt64 <<< 8) ||| h.toUInt64) :: words rest
  | _ => []

def wordBytes (w : UInt64) : Bytes :=
  [(w >>> 56).toUInt8, (w >>> 48).toUInt8, (w >>> 40).toUInt8, (w >>> 32).toUInt8,
    (w >>> 24).toUInt8, (w >>> 16).toUInt8, (w >>> 8).toUInt8, w.toUInt8]

/-- The state after one more block of 128 bytes. -/
def State.absorb (s : State) (block : Bytes) : State :=
  match words block with
  | [w0, w1, w2, w3, w4, w5, w6, w7, w8, w9, w10, w11, w12, w13, w14, w15] =>
      s.add (stirAll roundConstants
        ⟨w0, w1, w2, w3, w4, w5, w6, w7, w8, w9, w10, w11, w12, w13, w14, w15⟩ s)
  | _ => s

/-- The message closed by one set bit, zeros, and its length in bits; `before` bytes precede it. -/
def padded (before : Nat) (message : Bytes) : Bytes :=
  let total := before + message.length
  message ++ 0x80 :: List.replicate ((239 - total % 128) % 128) 0 ++ bigEndian 16 (8 * total)

/-- The digest of a message whose first `before` bytes, whole blocks, led to the state `s`. -/
def State.finish (s : State) (before : Nat) (message : Bytes) : Bytes :=
  let last := (chunks blockLength (padded before message)).foldl State.absorb s
  wordBytes last.a ++ wordBytes last.b ++ wordBytes last.c ++ wordBytes last.d ++
    wordBytes last.e ++ wordBytes last.f

end Digest

def digest (message : Bytes) : Bytes :=
  Digest.start.finish 0 message

/-- The digest of the digest, which does not extend to longer messages. -/
def doubleDigest (message : Bytes) : Bytes :=
  digest (digest message)

@[simp] theorem Digest.State.length_finish (s : State) (before : Nat) (message : Bytes) :
    (s.finish before message).length = Digest.length := rfl

@[simp] theorem length_digest (message : Bytes) : (digest message).length = Digest.length := rfl

@[simp] theorem length_doubleDigest (message : Bytes) :
    (doubleDigest message).length = Digest.length := rfl

end Courier
